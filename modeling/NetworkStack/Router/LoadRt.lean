import Mathlib.Data.List.TakeWhile
import NetworkStack.Lib.Lines
import NetworkStack.Router.HandlePacket
import NetworkStack.Vns.Inet

/-!
# Loading the routing table

`sr_load_rt` reads a file with one entry on a line. The four arrays that a line is parsed into are
not cleared between two lines, and nobody asks how many fields a line had. So each call of `fgets`
makes an entry, be it of fields that an earlier line left behind.

## Implementation notes

The file is its bytes, `none` if it cannot be read. The arrays are the strings in them; what they
hold before the first line is an argument. Printing is left out.
-/

namespace NetworkStack.Router.LoadRt

open Buffer Decimal Lines

/-- `BUFSIZ`. -/
def bufsiz : Nat := 8192

/-- The size of the arrays `dest`, `gw`, `mask` and `iface`. -/
def fieldSize : Nat := 32

/-- The strings in these arrays. -/
structure Fields where
  dest : List Byte
  gw : List Byte
  mask : List Byte
  iface : List Byte
  deriving DecidableEq, Repr

/-- The conversion `%s`: a word and what is left. -/
def scanWord (s : List Byte) : Option (List Byte × List Byte) :=
  let s := s.dropWhile isSpace
  if s = [] then none else some (s.takeWhile (!isSpace ·), s.dropWhile (!isSpace ·))

/-- The words that so many conversions find. -/
def scanWords : Nat → List Byte → List (List Byte)
  | 0, _ => []
  | n + 1, s =>
      match scanWord s with
      | none => []
      | some (word, rest) => word :: scanWords n rest

/-- The words that `sscanf` finds in a line. -/
def lineWords (line : List Byte) : List (List Byte) := scanWords 4 (line.takeWhile (· ≠ 0))

/-- `sscanf`; an array that there is no word for stays as it is. `none` is a word that is too long
for its array. -/
def sscanf (line : List Byte) (b : Fields) : Option Fields :=
  let words := lineWords line
  if words.all (·.length < fieldSize) then
    some {
      dest := (words[0]?).getD b.dest
      gw := (words[1]?).getD b.gw
      mask := (words[2]?).getD b.mask
      iface := (words[3]?).getD b.iface }
  else none

/-- The `s_addr` that `inet_aton` stores. -/
def inAddr (s : List Byte) : Option Addr := do load32 (← Vns.inetAton s) 0

/-- `sr_add_rt_entry`: the walk to the last entry of the table. -/
def srAddRtEntry (dest gw mask : Addr) (ifName : List Byte) : List SrRt → List SrRt
  | [] => [⟨dest, gw, mask, ifName.take srIfaceNamelen⟩]
  | rtWalker :: rest => rtWalker :: srAddRtEntry dest gw mask ifName rest

/-- The loop of `sr_load_rt`: what it returns and the table that it leaves. -/
def loadLoop : List (List Byte) → Fields → Bool → List SrRt → Option (Int × List SrRt)
  | [], _, _, table => some (0, table)
  | line :: lines, b, cleared, table =>
      match sscanf line b with
      | none => none
      | some b =>
          match inAddr b.dest, inAddr b.gw, inAddr b.mask with
          | some dest, some gw, some mask =>
              let table := if cleared then table else []
              loadLoop lines b true (srAddRtEntry dest gw mask b.iface table)
          | _, _, _ => some (-1, table)

/-- `sr_load_rt`. -/
def srLoadRt (junk : Fields) (sr : SrInstance) (file : Option (List Byte)) :
    Option (Int × SrInstance) :=
  match file with
  | none => some (-1, sr)
  | some contents =>
      (loadLoop (fgetsAll bufsiz contents) junk false sr.routingTable).map fun r =>
        (r.1, { sr with routingTable := r.2 })

/-! ## A table with an entry for each line -/

/-- The line has all the fields. -/
def Complete (line : List Byte) : Prop := (lineWords line).length = 4

instance (line : List Byte) : Decidable (Complete line) := inferInstanceAs (Decidable (_ = _))

/-- The entry of a line on its own. -/
def parseLine (line : List Byte) : Option SrRt :=
  match lineWords line with
  | [dest, gw, mask, iface] => do
      return ⟨← inAddr dest, ← inAddr gw, ← inAddr mask, iface.take srIfaceNamelen⟩
  | _ => none

def nonBlank (contents : List Byte) : List (List Byte) :=
  (splitLines contents).filter fun line => !line.all isSpace

/-- The table has the entries of the lines, and no line has too few fields. -/
structure LoadsLines (contents : List Byte) (table : List SrRt) : Prop where
  entries : table.map some = (nonBlank contents).map parseLine
  complete : ∀ line ∈ nonBlank contents, Complete line

/-- Every line is complete and fits, and there is a line if there is something to clear. -/
structure Regular (contents : List Byte) (old : List SrRt) : Prop where
  lines : ∀ line ∈ splitLines contents, Complete line ∧ line.length < bufsiz
  clears : contents ≠ [] ∨ old = []

variable {line : List Byte} {lines : List (List Byte)} {b : Fields} {cleared : Bool}
  {table table' : List SrRt}

theorem srAddRtEntry_eq (dest gw mask : Addr) (ifName : List Byte) (table : List SrRt) :
    srAddRtEntry dest gw mask ifName table =
      table ++ [⟨dest, gw, mask, ifName.take srIfaceNamelen⟩] := by
  induction table with
  | nil => rfl
  | cons rt rest ih => rw [srAddRtEntry, ih, List.cons_append]

/-- The entry that the arrays hold. -/
def Fields.entry (b : Fields) : Option SrRt := do
  return ⟨← inAddr b.dest, ← inAddr b.gw, ← inAddr b.mask, b.iface.take srIfaceNamelen⟩

/-- A round of the loop that does not fail adds the entry that is in the arrays after it. -/
theorem loadLoop_cons (h : loadLoop (line :: lines) b cleared table = some (0, table')) :
    ∃ b' entry, sscanf line b = some b' ∧ b'.entry = some entry ∧
      loadLoop lines b' true ((if cleared then table else []) ++ [entry]) = some (0, table') := by
  rw [loadLoop] at h
  cases hscan : sscanf line b with
  | none =>
      rw [hscan] at h
      cases h
  | some b' =>
      rw [hscan] at h
      dsimp only at h
      split at h
      · next dest gw mask hdest hgw hmask =>
        rw [srAddRtEntry_eq] at h
        refine ⟨b', _, rfl, ?_, h⟩
        rw [Fields.entry, hdest, hgw, hmask]
        rfl
      · cases h

/-- A complete line leaves nothing in the arrays of the lines before it. -/
theorem entry_of_complete (hline : Complete line) {b' : Fields} (hscan : sscanf line b = some b') :
    b'.entry = parseLine line := by
  obtain ⟨dest, gw, mask, iface, hwords⟩ := List.length_eq_four.mp hline
  rw [sscanf, hwords] at hscan
  split at hscan
  · rw [← Option.some.inj hscan, parseLine, hwords]
    rfl
  · cases hscan

/-- A line with nothing on it has no words. -/
theorem not_all_isSpace_of_complete (hline : Complete line) : line.all isSpace = false := by
  apply Bool.eq_false_iff.mpr
  intro hblank
  have hdrop : (line.takeWhile (· ≠ 0)).dropWhile isSpace = [] := by
    rw [List.dropWhile_eq_nil_iff]
    intro c hc
    exact List.all_eq_true.mp hblank c (List.takeWhile_sublist _ |>.subset hc)
  have hnone : lineWords line = [] := by
    rw [lineWords, scanWords, scanWord, hdrop]
    rfl
  rw [Complete, hnone] at hline
  cases hline

/-! ## What the loop leaves -/

/-- The table that the entries are put behind. -/
def start (cleared : Bool) (lines : List (List Byte)) (table : List SrRt) : List SrRt :=
  if cleared ∨ lines = [] then table else []

theorem start_cons : start cleared (line :: lines) table = if cleared then table else [] := by
  cases cleared <;> rfl

/-- Each call of `fgets` adds one entry. -/
theorem length_loadLoop (h : loadLoop lines b cleared table = some (0, table')) :
    table'.length = (start cleared lines table).length + lines.length := by
  induction lines generalizing b cleared table with
  | nil =>
      rw [loadLoop, Option.some.injEq, Prod.mk.injEq] at h
      rw [← h.2, start, if_pos (Or.inr rfl)]
      rfl
  | cons line lines ih =>
      obtain ⟨b', entry, -, -, hrest⟩ := loadLoop_cons h
      rw [ih hrest, start, if_pos (Or.inl rfl), start_cons, List.length_append,
        List.length_singleton, List.length_cons]
      omega

/-- Of complete lines, each call of `fgets` adds the entry of its line. -/
theorem loadLoop_complete (hlines : ∀ line ∈ lines, Complete line)
    (h : loadLoop lines b cleared table = some (0, table')) :
    table'.map some = (start cleared lines table).map some ++ lines.map parseLine := by
  induction lines generalizing b cleared table with
  | nil =>
      rw [loadLoop, Option.some.injEq, Prod.mk.injEq] at h
      rw [← h.2, start, if_pos (Or.inr rfl), List.map_nil, List.append_nil]
  | cons line lines ih =>
      rw [List.forall_mem_cons] at hlines
      obtain ⟨b', entry, hscan, hentry, hrest⟩ := loadLoop_cons h
      rw [entry_of_complete hlines.1 hscan] at hentry
      have hcons : (line :: lines).map parseLine = some entry :: lines.map parseLine := by
        rw [List.map_cons, hentry]
      rw [ih hlines.2 hrest, start, if_pos (Or.inl rfl), start_cons, hcons, List.map_append,
        List.append_assoc]
      rfl

variable {contents : List Byte} {old : List SrRt} {junk : Fields}

theorem two_le_bufsiz : 2 ≤ bufsiz := by decide

theorem regular_of_loadsLines
    (h : loadLoop (fgetsAll bufsiz contents) junk false old = some (0, table))
    (hloads : LoadsLines contents table) : Regular contents old := by
  obtain ⟨hle, hfits, -⟩ := fgetsAll_lines two_le_bufsiz contents
  have hlength := length_loadLoop h
  have hentries : table.length = (nonBlank contents).length := by
    rw [← List.length_map (f := some), hloads.entries, List.length_map]
  have hfilter : (nonBlank contents).length ≤ (splitLines contents).length :=
    List.length_filter_le _ _
  have hcalls : (fgetsAll bufsiz contents).length ≤ (splitLines contents).length := by omega
  have hall : nonBlank contents = splitLines contents := by
    have hlen : (nonBlank contents).length = (splitLines contents).length := by omega
    exact List.filter_sublist.eq_of_length hlen
  refine ⟨fun line hline => ⟨hloads.complete line (hall ▸ hline), hfits hcalls line hline⟩, ?_⟩
  by_cases hcontents : contents = []
  · right
    subst hcontents
    have hstart : start false (fgetsAll bufsiz []) old = old := rfl
    rw [hstart, hentries] at hlength
    exact List.length_eq_zero_iff.mp (by simpa [nonBlank, splitLines, fgetsAll, fgetsLoop] using hlength.symm)
  · exact Or.inl hcontents

theorem loadsLines_of_regular
    (h : loadLoop (fgetsAll bufsiz contents) junk false old = some (0, table))
    (hregular : Regular contents old) : LoadsLines contents table := by
  obtain ⟨-, -, heq⟩ := fgetsAll_lines two_le_bufsiz contents
  have hcalls : fgetsAll bufsiz contents = splitLines contents :=
    heq fun line hline => (hregular.lines line hline).2
  have hall : nonBlank contents = splitLines contents := by
    rw [nonBlank, List.filter_eq_self]
    intro line hline
    rw [not_all_isSpace_of_complete (hregular.lines line hline).1]
    rfl
  have hstart : start false (splitLines contents) old = [] := by
    rw [start]
    split
    · next hnil =>
      have hcontents := splitLines_eq_nil.mp (hnil.resolve_left Bool.false_ne_true)
      exact hregular.clears.resolve_left fun hne => hne hcontents
    · rfl
  refine ⟨?_, fun line hline => (hregular.lines line (hall ▸ hline)).1⟩
  rw [hcalls] at h
  have hentries := loadLoop_complete (fun line hline => (hregular.lines line hline).1) h
  rw [hentries, hstart, hall]
  rfl

/-- When the file is loaded, the table has the entries of its lines exactly if every line is
complete and fits, and there is a line if there is something to clear. -/
theorem loadsLines_iff_regular (junk : Fields) (sr sr' : SrInstance) (contents : List Byte)
    (h : srLoadRt junk sr (some contents) = some (0, sr')) :
    LoadsLines contents sr'.routingTable ↔ Regular contents sr.routingTable := by
  obtain ⟨⟨status, table⟩, hloop, heq⟩ := Option.map_eq_some_iff.mp h
  obtain ⟨rfl, rfl⟩ := Prod.mk.inj heq
  exact ⟨regular_of_loadsLines hloop, loadsLines_of_regular hloop⟩

/-- A file with one route, as the controller writes it. -/
def oneRoute : List Byte := text "10.0.1.100  10.0.1.100  255.255.255.255 eth3\n"

def noFields : Fields := ⟨[], [], [], []⟩

def router : SrInstance := ⟨[], [], srArpcacheInit⟩

/-- The entry of that route. -/
def eth3Route : SrRt := ⟨0x6401000a, 0x6401000a, 0xffffffff, text "eth3"⟩

def twoRoutesFile : List Byte :=
  oneRoute ++ text "10.0.1.101  10.0.1.101  255.255.255.255 eth1\n"

def eth1Route : SrRt := ⟨0x6501000a, 0x6501000a, 0xffffffff, text "eth1"⟩

theorem loadsLines_iff_regular_two :
    LoadsLines twoRoutesFile [eth3Route, eth1Route] ↔ Regular twoRoutesFile [] :=
  loadsLines_iff_regular noFields router { router with routingTable := [eth3Route, eth1Route] }
    twoRoutesFile (by decide +kernel)

/-- With an empty line behind it, the route is in the table twice. -/
theorem not_loadsLines_blank :
    srLoadRt noFields router (some (oneRoute ++ text "\n")) =
        some (0, { router with routingTable := [eth3Route, eth3Route] }) ∧
      ¬ LoadsLines (oneRoute ++ text "\n") [eth3Route, eth3Route] := by
  refine ⟨by decide +kernel, fun h => ?_⟩
  have hlength := congrArg List.length h.entries
  revert hlength
  decide +kernel

end NetworkStack.Router.LoadRt
