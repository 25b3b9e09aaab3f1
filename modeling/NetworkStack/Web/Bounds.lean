import NetworkStack.Lib.Bounded
import NetworkStack.Web.Paths

/-!
# The arrays of the web server

The request is taken apart again with every access to `buf`, `file_name`, `files` and
`extension` checked against the size of its array. Without a violation it leads to the same
target as the server's model; the requests without one are those that end their first line in
the buffer, with a name, and an extension, that fit.
-/

namespace NetworkStack.Web

open Bounded CString NetworkStack.Computation Decimal NetworkStack.Path

inductive ArrayName where
  | buf
  | fileName
  | files
  | extension
  deriving DecidableEq, Repr

/-- A computation that may leave an array. -/
abbrev Checked (α : Type) := Except (Violation ArrayName) α

/-- The loop that looks for the end of the first line. -/
def scanLine (buf : List Byte) : Nat → Nat → Checked Nat
  | 0, j => .error ⟨.buf, j⟩
  | fuel + 1, j => do
      let b ← readAt .buf buf j
      if b = ascii '\r' then .ok j
      else
        let c ← readAt .buf buf (j + 1 : Nat)
        if c = ascii '\n' then .ok j else scanLine buf fuel (j + 1)

/-- The loop that copies the name up to `limit`: the index behind it and the array. -/
def copyName (buf : List Byte) (limit : Nat) : Nat → Nat → List Byte → Checked (Nat × List Byte)
  | 0, k, fileName => .ok (k, fileName)
  | fuel + 1, k, fileName =>
      if k < limit then do
        let b ← readAt .buf buf k
        let fileName ← writeAt .fileName fileName (k - 5 : Nat) b
        copyName buf limit fuel (k + 1) fileName
      else .ok (k, fileName)

/-- The string in an array. -/
def readString (array : ArrayName) (mem : List Byte) : Checked (List Byte) := do
  let n ← strlen array mem
  .ok (mem.take n)

/-- `strcat`. -/
def strcat (array : ArrayName) (mem s : List Byte) : Checked (List Byte) := do
  let n ← strlen array mem
  writeAll array mem n (s ++ [0])

/-- The choice of the path, up to the `fopen` that reads it. -/
def chooseName (fileName : List Byte) (k : Nat) : Checked Target := do
  let length ← strlen .fileName fileName
  if length = 0 then
    let fileName ← writeAll .fileName fileName 0 (List.replicate fileNameSize 0)
    let fileName ← writeAll .fileName fileName 0 (text "webfiles/index.html" ++ [0])
    let path ← readString .fileName fileName
    .ok ⟨fileName, k, path⟩
  else
    let b ← readAt .fileName fileName (k - 6 : Int)
    if b = ascii '/' then
      let fileName ← strcat .fileName fileName (text "index.html")
      let path ← readString .fileName fileName
      .ok ⟨fileName, k, path⟩
    else
      let files ← writeAll .files (List.replicate 90 0) 0 (text "webfiles/" ++ [0])
      let name ← readString .fileName fileName
      let files ← strcat .files files name
      let path ← readString .files files
      .ok ⟨fileName, k, path⟩

/-- The loop that takes the extension, from the index `i` down, and the zero byte behind it. -/
def takeExtension (fileName : List Byte) : Nat → Int → List Byte → Nat → Checked (List Byte)
  | 0, _, extension, _ => .ok extension
  | fuel + 1, i, extension, y => do
      let b ← readAt .fileName fileName i
      if b ≠ ascii '.' ∧ i > 0 then
        let extension ← writeAt .extension extension y b
        takeExtension fileName fuel (i - 1) extension (y + 1)
      else writeAt .extension extension y 0

/-- A request that starts with `GET`, as far as its arrays go. The index `k - 6` is that of a
signed `k`. -/
def handleGet (files : Files) (request : List Byte) : Checked Target := do
  let buf := requestBuf request
  let j ← scanLine buf buf.length 4
  let (k, fileName) ← copyName buf (j - 9) buf.length 5 (List.replicate fileNameSize 0)
  let t ← chooseName fileName k
  match files t.path with
  | none => .ok t
  | some _ => do
      let _ ← takeExtension t.fileName t.k (t.k - 6 : Int) (List.replicate extensionSize 0) 0
      .ok t

/-! ## The loops without a violation -/

theorem toOption_scanLine (buf : List Byte) (fuel j : Nat) :
    (scanLine buf fuel j).toOption = endOfLine buf fuel j := by
  induction fuel generalizing j with
  | zero => rfl
  | succ fuel ih =>
      rw [scanLine, endOfLine, toOption_bind, toOption_readAt, Option.bind_eq_bind]
      congr 1
      funext b
      split
      · rfl
      · rw [toOption_bind, toOption_readAt]
        congr 1
        funext c
        split
        · rfl
        · exact ih (j + 1)

/-- The name is copied whole if there is room for it. -/
theorem toOption_copyName {buf : List Byte} {limit : Nat} (hlimit : limit ≤ buf.length)
    {fuel k : Nat} (hfuel : limit ≤ k + fuel) {fileName : List Byte} (hk : 5 ≤ k)
    (hroom : k - 5 ≤ fileName.length) :
    (copyName buf limit fuel k fileName).toOption =
      if k - 5 + ((buf.take limit).drop k).length ≤ fileName.length then
        some (k + ((buf.take limit).drop k).length,
          overwrite fileName (k - 5) ((buf.take limit).drop k))
      else none := by
  induction fuel generalizing k fileName with
  | zero =>
      have hnil : (buf.take limit).drop k = [] := by
        rw [List.drop_eq_nil_iff, List.length_take]
        omega
      rw [hnil, List.length_nil, Nat.add_zero, Nat.add_zero, if_pos hroom, overwrite_nil]
      rfl
  | succ fuel ih =>
      rw [copyName]
      by_cases hlt : k < limit
      · have hget : buf[k]? = some (buf.get ⟨k, by omega⟩) := List.getElem?_eq_getElem _
        have hcons : (buf.take limit).drop k =
            buf.get ⟨k, by omega⟩ :: (buf.take limit).drop (k + 1) := by
          rw [List.drop_eq_getElem_cons (by rw [List.length_take]; omega)]
          simp
        have hnext : k + 1 - 5 = k - 5 + 1 := by omega
        rw [if_pos hlt, toOption_bind, toOption_readAt, hget, Option.bind_some, toOption_bind,
          toOption_writeAt, hcons, List.length_cons]
        by_cases hput : k - 5 < fileName.length
        · rw [if_pos hput, Option.bind_some, ih (by omega) (by omega) (by rw [List.length_set]; omega),
            List.length_set, hnext, overwrite_set hput]
          refine if_congr (by omega) ?_ rfl
          rw [Nat.add_assoc, Nat.add_comm 1]
        · rw [if_neg hput, Option.bind_none, if_neg (by omega)]
      · have hnil : (buf.take limit).drop k = [] := by
          rw [List.drop_eq_nil_iff, List.length_take]
          omega
        rw [if_neg hlt, hnil, List.length_nil, Nat.add_zero, Nat.add_zero, if_pos hroom,
          overwrite_nil]
        rfl

/-! ## Strings without a violation -/

theorem toOption_readString (array : ArrayName) (mem : List Byte) :
    (readString array mem).toOption = cString mem := by
  rw [readString, toOption_bind, toOption_strlen]
  cases h : cString mem with
  | none => rfl
  | some s =>
      obtain ⟨-, rest, rfl⟩ := exists_of_cString h
      rw [Option.map_some, Option.bind_some]
      exact congrArg some (List.take_left' rfl)

theorem toOption_strcat (array : ArrayName) {mem n : List Byte} (h : cString mem = some n)
    (s : List Byte) :
    (strcat array mem s).toOption = if n.length + (s.length + 1) ≤ mem.length then
      some (overwrite mem n.length (s ++ [0])) else none := by
  obtain ⟨-, rest, hmem⟩ := exists_of_cString h
  have hle : n.length ≤ mem.length := by
    rw [hmem, List.length_append]
    omega
  rw [strcat, toOption_bind, toOption_strlen, h, Option.map_some, Option.bind_some,
    toOption_writeAll _ hle, List.length_append, List.length_singleton]

/-- The path is chosen as in the server's model. -/
theorem toOption_chooseName {fileName : List Byte} (hsize : fileName.length = fileNameSize) {k : Nat}
    (hk : ∀ name, cString fileName = some name → name ≠ [] → 6 ≤ k) (hlast : k - 6 < fileNameSize) :
    (chooseName fileName k).toOption = resolve fileName k := by
  rw [chooseName, toOption_bind, toOption_strlen, resolve]
  cases hname : cString fileName with
  | none => rfl
  | some name =>
      rw [Option.map_some, Option.bind_some, Option.bind_eq_bind, Option.bind_some]
      by_cases hnil : name = []
      · have hzero : overwrite fileName 0 (List.replicate fileNameSize 0) =
            List.replicate fileNameSize 0 := by
          rw [overwrite_zero, List.length_replicate, List.drop_of_length_le (by omega),
            List.append_nil]
        have hindex : overwrite (List.replicate fileNameSize 0) 0 (text "webfiles/index.html" ++ [0]) =
            padded fileNameSize (text "webfiles/index.html") := by decide
        have hpath : cString (padded fileNameSize (text "webfiles/index.html")) =
            some (text "webfiles/index.html") := cString_padded (by decide) (by decide)
        rw [if_pos (List.length_eq_zero_iff.mpr hnil), if_pos hnil, toOption_bind,
          toOption_writeAll _ (Nat.zero_le _), List.length_replicate, if_pos (by omega),
          Option.bind_some, hzero, toOption_bind, toOption_writeAll _ (Nat.zero_le _),
          if_pos (by decide), Option.bind_some, hindex, toOption_bind, toOption_readString, hpath]
        rfl
      · have hk6 : 6 ≤ k := hk name hname hnil
        have hindex : (k : Int) - 6 = ((k - 6 : Nat) : Int) := by omega
        have hget : fileName[k - 6]? = some (fileName.get ⟨k - 6, by omega⟩) :=
          List.getElem?_eq_getElem _
        obtain ⟨hfree, rest, hmem⟩ := exists_of_cString hname
        rw [if_neg (mt List.length_eq_zero_iff.mp hnil), if_neg hnil, hindex, toOption_bind,
          toOption_readAt, hget, Option.bind_some]
        by_cases hslash : fileName.get ⟨k - 6, by omega⟩ = ascii '/'
        · rw [if_pos hslash, if_pos (congrArg some hslash), toOption_bind,
            toOption_strcat _ hname, hsize]
          change _ = if name.length + ((text "index.html").length + 1) ≤ fileNameSize then
            some (Target.mk _ _ _) else none
          split
          · rw [Option.bind_some, toOption_bind, toOption_readString,
              cString_overwrite hname (by decide)]
            rfl
          · rfl
        · have hfiles : overwrite (List.replicate 90 0) 0 (text "webfiles/" ++ [0]) =
              padded 90 (text "webfiles/") := by decide
          have hwebfiles : cString (padded 90 (text "webfiles/")) = some (text "webfiles/") :=
            cString_padded (by decide) (by decide)
          have hshort : (text "webfiles/").length + (name.length + 1) ≤
              (padded 90 (text "webfiles/")).length := by
            have hlen := congrArg List.length hmem
            rw [hsize, List.length_append, List.length_cons, fileNameSize] at hlen
            rw [length_padded (by decide)]
            simp only [text, List.length_map]
            change 9 + (name.length + 1) ≤ 90
            omega
          rw [if_neg hslash, if_neg (fun h => hslash (Option.some.inj h)), toOption_bind,
            toOption_writeAll _ (Nat.zero_le _), if_pos (by decide), Option.bind_some, hfiles,
            toOption_bind, toOption_readString, hname, Option.bind_some, toOption_bind,
            toOption_strcat _ hwebfiles, if_pos hshort, Option.bind_some, toOption_bind,
            toOption_readString, cString_overwrite hwebfiles hfree]
          rfl

/-- The extension is taken without a violation if there is room for it and for its zero byte. -/
theorem isSome_takeExtension {fileName : List Byte} {i fuel y : Nat} {extension : List Byte}
    (hi : i < fileName.length) (hfuel : i < fuel) :
    (takeExtension fileName fuel i extension y).toOption.isSome ↔
      y + (extensionLoop fileName i).length < extension.length := by
  obtain ⟨fuel, rfl⟩ := Nat.exists_eq_add_one_of_ne_zero (Nat.ne_zero_of_lt hfuel)
  have hget : fileName[i]? = some (fileName.getD i 0) := by
    rw [List.getD_eq_getElem?_getD, List.getElem?_eq_getElem hi]
    rfl
  induction i generalizing fuel y extension with
  | zero =>
      rw [takeExtension, toOption_bind, toOption_readAt, hget, Option.bind_some,
        if_neg (fun h => absurd h.2 (by decide)), toOption_writeAt]
      simp [extensionLoop]
  | succ i ih =>
      rw [takeExtension, toOption_bind, toOption_readAt, hget, Option.bind_some, extensionLoop]
      by_cases hdot : fileName.getD (i + 1) 0 = ascii '.'
      · rw [if_neg (fun h => h.1 hdot), if_pos hdot, toOption_writeAt]
        simp
      · have hprev : ((i + 1 : Nat) : Int) - 1 = (i : Int) := by omega
        rw [if_pos ⟨hdot, by omega⟩, if_neg hdot, toOption_bind, toOption_writeAt, hprev,
          List.length_cons]
        by_cases hy : y < extension.length
        · obtain ⟨fuel, rfl⟩ := Nat.exists_eq_add_one_of_ne_zero (by omega : fuel ≠ 0)
          have hget' : fileName[i]? = some (fileName.getD i 0) := by
            rw [List.getD_eq_getElem?_getD, List.getElem?_eq_getElem (Nat.lt_of_succ_lt hi)]
            rfl
          rw [if_pos hy, Option.bind_some]
          refine (ih (Nat.lt_of_succ_lt hi) fuel (by omega) hget').trans ?_
          rw [List.length_set]
          omega
        · rw [if_neg hy, Option.bind_none]
          refine iff_of_false (by simp) (by omega)

/-! ## The whole request -/

theorem overwrite_replicate {size : Nat} (s : List Byte) :
    overwrite (List.replicate size 0) 0 s = padded size s := by
  rw [overwrite_zero, List.drop_replicate]
  rfl

theorem endOfLine_lt {buf : List Byte} {fuel j j' : Nat} (h : endOfLine buf fuel j = some j') :
    j' < buf.length := by
  induction fuel generalizing j with
  | zero => cases h
  | succ fuel ih =>
      rw [endOfLine, Option.bind_eq_bind, Option.bind_eq_some_iff] at h
      obtain ⟨b, hb, h⟩ := h
      have hj : j < buf.length := (List.getElem?_eq_some_iff.mp hb).1
      split at h
      · exact Option.some.inj h ▸ hj
      · rw [Option.bind_eq_some_iff] at h
        obtain ⟨c, -, h⟩ := h
        split at h
        · exact Option.some.inj h ▸ hj
        · exact ih h

/-- What the choice of a path keeps. -/
theorem resolve_keeps {fileName : List Byte} {k : Nat} {t : Target}
    (hsize : fileName.length = fileNameSize) (h : resolve fileName k = some t) :
    t.k = k ∧ t.fileName.length = fileNameSize := by
  rw [resolve, Option.bind_eq_bind, Option.bind_eq_some_iff] at h
  obtain ⟨name, -, h⟩ := h
  split at h
  · obtain rfl := Option.some.inj h
    exact ⟨rfl, length_padded (by decide)⟩
  · split at h
    · simp only [Option.ite_none_right_eq_some] at h
      obtain ⟨hfit, h⟩ := h
      obtain rfl := Option.some.inj h
      refine ⟨rfl, ?_⟩
      rw [length_overwrite (by rw [hsize]; exact hfit), hsize]
    · obtain rfl := Option.some.inj h
      exact ⟨rfl, hsize⟩

/-- A request with a target, once the file is opened. -/
theorem isSome_extension {t : Target} (hsize : t.fileName.length = fileNameSize)
    (hk : 5 ≤ t.k ∧ t.k ≤ 35) :
    (takeExtension t.fileName t.k (t.k - 6 : Int)
        (List.replicate extensionSize 0) 0).toOption.isSome ↔
      6 ≤ t.k ∧ t.extension.length < extensionSize := by
  by_cases hlow : 6 ≤ t.k
  · have hindex : (t.k : Int) - 6 = ((t.k - 6 : Nat) : Int) := by omega
    rw [hindex, isSome_takeExtension (by rw [hsize, fileNameSize]; omega) (by omega),
      List.length_replicate, Nat.zero_add]
    exact (and_iff_right hlow).symm
  · refine iff_of_false ?_ fun h => hlow h.1
    -- the byte in front of the array
    obtain ⟨fuel, hfuel⟩ := Nat.exists_eq_add_one_of_ne_zero (by omega : t.k ≠ 0)
    rw [hfuel, takeExtension, toOption_bind, toOption_readAt_neg _ _ (by omega), Option.bind_none]
    simp

/-- Without a violation a request leads to its target, and if the file is there, its extension
is read from a name that is not empty and fits. -/
theorem handleGet_ok_iff (files : Files) (request : List Byte) :
    (∃ t, handleGet files request = .ok t) ↔
      ∃ t, target (requestBuf request) = some t ∧
        ((files t.path).isSome → 6 ≤ t.k ∧ t.extension.length < extensionSize) := by
  have hsome (x : Checked Target) : (∃ t, x = .ok t) ↔ x.toOption.isSome := by
    cases x with
    | error v => simp [Except.toOption]
    | ok t => simp [Except.toOption]
  rw [hsome, handleGet, toOption_bind, toOption_scanLine, target_eq, copiedName]
  cases hend : endOfLine (requestBuf request) (requestBuf request).length 4 with
  | none => simp
  | some j =>
      have hj := endOfLine_lt hend
      rw [Option.bind_some, Option.map_some, Option.bind_some, toOption_bind,
        toOption_copyName (by omega) (by omega) (Nat.le_refl 5) (by simp), List.length_replicate,
        Nat.sub_self, Nat.zero_add, overwrite_replicate]
      generalize ((requestBuf request).take (j - 9)).drop 5 = nm
      by_cases hcopied : nm.length ≤ fileNameSize
      · have hsize : (padded fileNameSize nm).length = fileNameSize := length_padded hcopied
        rw [if_pos hcopied, if_pos hcopied, Option.bind_some]
        simp only
        rw [toOption_bind, toOption_chooseName hsize ?_ ?_]
        · cases hres : resolve (padded fileNameSize nm) (5 + nm.length) with
          | none => simp
          | some t =>
              obtain ⟨hk, hfile⟩ := resolve_keeps hsize hres
              have hext := isSome_extension hfile ⟨by omega, by unfold fileNameSize at hcopied; omega⟩
              have honly (P : Target → Prop) : (∃ t', some t = some t' ∧ P t') ↔ P t := by simp
              rw [Option.bind_some, honly, ← hext]
              cases files t.path with
              | none => simp [Except.toOption]
              | some file =>
                  simp only [toOption_bind]
                  cases (takeExtension t.fileName t.k (t.k - 6 : Int)
                    (List.replicate extensionSize 0) 0).toOption with
                  | none => simp
                  | some extension => simp [Except.toOption]
        · intro name hname hne
          have hnm : nm ≠ [] := by
            rintro rfl
            rw [cString_padded_takeWhile (.inl (by decide))] at hname
            exact hne (Option.some.inj hname).symm
          have hpos := List.length_pos_of_ne_nil hnm
          omega
        · unfold fileNameSize at hcopied ⊢
          omega
      · rw [if_neg hcopied, if_neg hcopied]
        simp


/-! ## The requests that fit -/

/-- The path that is opened for the bytes that were copied. -/
def openedPath (nm : List Byte) : List Byte :=
  let name := nm.takeWhile (· ≠ 0)
  if name = [] then text "webfiles/index.html"
  else if nm.getLast? = some slash then name ++ text "index.html"
  else text "webfiles/" ++ name

/-- As many bytes of `file_name` as were copied, once `index.html` was put in. -/
def nameArray (nm : List Byte) : List Byte :=
  let name := nm.takeWhile (· ≠ 0)
  if name = [] then (padded fileNameSize (text "webfiles/index.html")).take nm.length
  else if nm.getLast? = some slash then
    (overwrite (padded fileNameSize nm) name.length (text "index.html" ++ [0])).take nm.length
  else nm

/-- The bytes that are copied fit in `file_name`, as a string and with `index.html` behind a
slash. If the file is there, the name is not empty and what is behind its last dot fits in
`extension`. -/
structure NameFits (files : Files) (nm : List Byte) : Prop where
  copied : nm.length ≤ fileNameSize
  terminated : nm.length < fileNameSize ∨ 0 ∈ nm
  index : nm.takeWhile (· ≠ 0) ≠ [] → nm.getLast? = some slash →
    (nm.takeWhile (· ≠ 0)).length + 11 ≤ fileNameSize
  extension : (files (openedPath nm)).isSome → nm ≠ [] ∧
    ((nameArray nm).tail.reverse.takeWhile (· ≠ ascii '.')).length < extensionSize

/-- The first line ends in the buffer, and its name fits. -/
structure Fits (files : Files) (buf : List Byte) : Prop where
  lineEnd : ∃ i, 4 ≤ i ∧ (buf[i]? = some (ascii '\r') ∨ buf[i + 1]? = some (ascii '\n'))
  name : ∀ nm, copiedName buf = some nm → NameFits files nm

theorem endOfLine_eq_none {buf : List Byte} {j : Nat} (h : buf.length ≤ j) (fuel : Nat) :
    endOfLine buf fuel j = none := by
  cases fuel with
  | zero => rfl
  | succ fuel =>
      rw [endOfLine, List.getElem?_eq_none h]
      rfl

theorem isSome_endOfLine {buf : List Byte} {fuel j : Nat} (h : buf.length ≤ j + fuel) :
    (endOfLine buf fuel j).isSome ↔
      ∃ i, j ≤ i ∧ (buf[i]? = some (ascii '\r') ∨ buf[i + 1]? = some (ascii '\n')) := by
  have hend {i : Nat} (hi : buf.length ≤ i) (b : Byte) : buf[i]? ≠ some b := by
    rw [List.getElem?_eq_none hi]
    simp
  induction fuel generalizing j with
  | zero =>
      refine iff_of_false (by simp [endOfLine]) ?_
      rintro ⟨i, hi, hcr | hlf⟩
      · exact hend (by omega) _ hcr
      · exact hend (by omega) _ hlf
  | succ fuel ih =>
      -- the end is here, or it is further on
      have hsplit : (∃ i, j ≤ i ∧ (buf[i]? = some (ascii '\r') ∨ buf[i + 1]? = some (ascii '\n'))) ↔
          (buf[j]? = some (ascii '\r') ∨ buf[j + 1]? = some (ascii '\n')) ∨
            ∃ i, j + 1 ≤ i ∧ (buf[i]? = some (ascii '\r') ∨ buf[i + 1]? = some (ascii '\n')) := by
        constructor
        · rintro ⟨i, hi, hb⟩
          rcases Nat.eq_or_lt_of_le hi with rfl | hlt
          · exact .inl hb
          · exact .inr ⟨i, hlt, hb⟩
        · rintro (hb | ⟨i, hi, hb⟩)
          · exact ⟨j, Nat.le_refl j, hb⟩
          · exact ⟨i, Nat.le_of_succ_le hi, hb⟩
      refine Iff.trans ?_ (hsplit.trans (or_congr Iff.rfl (@ih (j + 1) (by omega)).symm)).symm
      rw [endOfLine, Option.bind_eq_bind]
      cases hb : buf[j]? with
      | none =>
          have hlen : buf.length ≤ j := List.getElem?_eq_none_iff.mp hb
          rw [endOfLine_eq_none (by omega), List.getElem?_eq_none (by omega : buf.length ≤ j + 1)]
          simp
      | some b =>
          rw [Option.bind_some, Option.some.injEq]
          by_cases hcr : b = ascii '\r'
          · rw [if_pos hcr]
            exact iff_of_true rfl (.inl (.inl hcr))
          · rw [if_neg hcr]
            cases hc : buf[j + 1]? with
            | none =>
                rw [endOfLine_eq_none (List.getElem?_eq_none_iff.mp hc)]
                simp [hcr]
            | some c =>
                rw [Option.bind_some, Option.some.injEq]
                by_cases hlf : c = ascii '\n'
                · rw [if_pos hlf]
                  exact iff_of_true rfl (.inl (.inr hlf))
                · rw [if_neg hlf]
                  simp [hcr, hlf]

/-- The target of a name that fits. -/
theorem exists_resolve {nm : List Byte}
    (hterm : nm.length < fileNameSize ∨ 0 ∈ nm)
    (hindex : nm.takeWhile (· ≠ 0) ≠ [] → nm.getLast? = some slash →
      (nm.takeWhile (· ≠ 0)).length + 11 ≤ fileNameSize) :
    ∃ t, resolve (padded fileNameSize nm) (5 + nm.length) = some t ∧ t.path = openedPath nm ∧
      t.k = 5 + nm.length ∧ t.fileName.take nm.length = nameArray nm := by
  rw [resolve_padded hterm]
  unfold openedPath nameArray
  by_cases hnil : nm.takeWhile (· ≠ 0) = []
  · simp only [if_pos hnil]
    exact ⟨_, rfl, rfl, rfl, rfl⟩
  · by_cases hslash : nm.getLast? = some slash
    · simp only [if_neg hnil, if_pos hslash, if_pos (hindex hnil hslash)]
      exact ⟨_, rfl, rfl, rfl, rfl⟩
    · simp only [if_neg hnil, if_neg hslash]
      exact ⟨_, rfl, rfl, rfl, List.take_left' rfl⟩

/-- A name that has a target fits with `index.html` behind it. -/
theorem index_of_resolve {nm : List Byte} {t : Target}
    (hterm : nm.length < fileNameSize ∨ 0 ∈ nm)
    (h : resolve (padded fileNameSize nm) (5 + nm.length) = some t)
    (hne : nm.takeWhile (· ≠ 0) ≠ []) (hslash : nm.getLast? = some slash) :
    (nm.takeWhile (· ≠ 0)).length + 11 ≤ fileNameSize := by
  rw [resolve_padded hterm, if_neg hne, if_pos hslash, Option.ite_none_right_eq_some] at h
  exact h.1

/-- What the extension loop takes, by the bytes that were copied. -/
theorem extension_iff {nm : List Byte} {t : Target} (hk : t.k = 5 + nm.length)
    (hlen : nm.length ≤ t.fileName.length) :
    6 ≤ t.k ∧ t.extension.length < extensionSize ↔ nm ≠ [] ∧
      ((t.fileName.take nm.length).tail.reverse.takeWhile (· ≠ ascii '.')).length <
        extensionSize := by
  cases nm with
  | nil => simp [hk]
  | cons b nm =>
      have hlast : t.k - 6 = nm.length := by
        rw [hk, List.length_cons]
        omega
      have hlow : 6 ≤ t.k := by
        rw [hk, List.length_cons]
        omega
      rw [Target.extension, hlast, extensionLoop_eq hlen, List.length_cons]
      exact and_congr_left fun _ => iff_of_true hlow (by simp)

/-- No array is left exactly if the request fits. -/
theorem handleGet_inBounds_iff (files : Files) (request : List Byte) :
    (∃ t, handleGet files request = .ok t) ↔ Fits files (requestBuf request) := by
  rw [handleGet_ok_iff]
  have hend := @isSome_endOfLine (requestBuf request) (requestBuf request).length 4 (by omega)
  constructor
  · rintro ⟨t, ht, hext⟩
    have hsome : (endOfLine (requestBuf request) (requestBuf request).length 4).isSome := by
      rw [Option.isSome_iff_ne_none]
      intro hnone
      rw [target, hnone] at ht
      cases ht
    refine ⟨hend.mp hsome, fun nm hname => ?_⟩
    obtain ⟨hcopied, hterm, hresolve⟩ := fits_of_target hname ht
    have hindex := index_of_resolve hterm hresolve
    obtain ⟨t', ht', hpath, hk, harray⟩ := exists_resolve hterm hindex
    obtain rfl := Option.some.inj (hresolve.symm.trans ht')
    refine ⟨hcopied, hterm, hindex, fun hfile => ?_⟩
    rw [← hpath] at hfile
    have hsize := (resolve_keeps (length_padded hcopied) hresolve).2
    rw [← harray]
    exact (extension_iff hk (by rw [hsize]; exact hcopied)).mp (hext hfile)
  · rintro ⟨hline, hfits⟩
    obtain ⟨j, hj⟩ := Option.isSome_iff_exists.mp (hend.mpr hline)
    have hname : copiedName (requestBuf request) =
        some (((requestBuf request).take (j - 9)).drop 5) := by
      rw [copiedName, hj]
      rfl
    obtain ⟨hcopied, hterm, hindex, hext⟩ := hfits _ hname
    obtain ⟨t, ht, hpath, hk, harray⟩ := exists_resolve hterm hindex
    refine ⟨t, ?_, fun hfile => ?_⟩
    · rw [target_eq, hname, Option.bind_some, if_pos hcopied, ht]
    · rw [hpath] at hfile
      have hsize := (resolve_keeps (length_padded hcopied) ht).2
      rw [extension_iff hk (by rw [hsize]; exact hcopied), harray]
      exact hext hfile

/-- Only the index is there. -/
def indexOnly : Files := fun path =>
  if path = text "webfiles/index.html" then some (text "<p>") else none

/-- The request for the index reads the byte in front of `file_name`, and a name of 31 bytes is
written behind its end. -/
theorem handleGet_violations :
    handleGet indexOnly (text "GET / HTTP/1.1\r\n\r\n") = .error ⟨.fileName, -1⟩ ∧
    handleGet indexOnly (getRequest (List.replicate 31 (ascii 'a')) (ascii '1') []) =
      .error ⟨.fileName, 30⟩ := by
  constructor <;> decide +kernel

end NetworkStack.Web
