import NetworkStack.Lib.Decimal

/-!
# Where a path leads

A directory is the list of the names on the way to it from the root. A path is followed
component by component: an empty one and `.` stay, `..` goes up, and anything else goes down.
Links are not followed.
-/

namespace NetworkStack.Path

open Decimal

def slash : Byte := ascii '/'

/-- The texts between the slashes. -/
def components : List Byte → List (List Byte)
  | [] => [[]]
  | b :: rest =>
      if b = slash then [] :: components rest
      else match components rest with
        | [] => [[b]]
        | first :: more => (b :: first) :: more

/-- One component further. The root is its own parent. -/
def descend (dir : List (List Byte)) (name : List Byte) : List (List Byte) :=
  if name = [] ∨ name = text "." then dir
  else if name = text ".." then dir.dropLast
  else dir ++ [name]

/-- Where a relative path leads from a directory. -/
def follow (dir : List (List Byte)) (path : List Byte) : List (List Byte) :=
  (components path).foldl descend dir

/-- Where a path leads: from the root if it starts with a slash, and else from `cwd`. -/
def resolve (cwd : List (List Byte)) (path : List Byte) : List (List Byte) :=
  follow (if path.head? = some slash then [] else cwd) path

/-- A name and a slash in front of a path. -/
theorem components_append {name : List Byte} (h : slash ∉ name) (path : List Byte) :
    components (name ++ slash :: path) = name :: components path := by
  induction name with
  | nil => rw [List.nil_append, components, if_pos rfl]
  | cons b rest ih =>
      rw [List.mem_cons, not_or] at h
      rw [List.cons_append, components, if_neg (Ne.symm h.1), ih h.2]

theorem follow_append {name : List Byte} (h : slash ∉ name) (dir : List (List Byte))
    (path : List Byte) :
    follow dir (name ++ slash :: path) = follow (descend dir name) path := by
  rw [follow, components_append h]
  rfl

end NetworkStack.Path
