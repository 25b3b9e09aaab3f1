import Mathlib.Data.List.TakeWhile
import NetworkStack.Web.Paths

/-!
# The type that is sent with a file

The extension is read backwards from the last byte that was copied out of the request, down to
the last dot or to the second byte of the name. What is opened may be another name by then:
`index.html` was put in, or the name ended at a zero byte before.
-/

namespace NetworkStack.Web

open CString Decimal Transfer NetworkStack.Path

/-- The type for an extension. -/
def extensionType (ext : List Byte) : List Byte :=
  if ext = text "html" ∨ ext = text "htm" then text "text/html"
  else if ext = text "txt" then text "text/plain"
  else if ext = text "jpeg" ∨ ext = text "jpg" then text "image/jpeg"
  else if ext = text "gif" then text "image/gif"
  else if ext = text "pdf" then text "Application/pdf"
  else []

/-- The text behind the last dot of a name that has one. -/
def afterLastDot (name : List Byte) : Option (List Byte) :=
  if ascii '.' ∈ name then some (name.reverse.takeWhile (· ≠ ascii '.')).reverse else none

/-- The type for a file of this name. -/
def typeOfName (name : List Byte) : List Byte := (afterLastDot name).elim [] extensionType

/-- The type that a response announces. -/
def sentType (response : List Byte) : Option (List Byte) :=
  (behind (text "\r\nContent-Type: ") response).map (·.takeWhile (· ≠ ascii '\r'))

/-- The text at the end of a name, behind its last dot or zero byte. The first byte of the name
is not looked at. -/
def lastWord (nm : List Byte) : List Byte :=
  (nm.tail.reverse.takeWhile fun b => b ≠ ascii '.' ∧ b ≠ 0).reverse

/-- The bytes copied from the request lead to the type of the file that is opened. Where a
name was put in, they are as many as lead to its extension. -/
def TypeFits (nm : List Byte) : Prop :=
  let name := nm.takeWhile (· ≠ 0)
  if name = [] then nm.length = 18 ∨ nm.length = 19
  else if nm.getLast? = some slash then
    nm.length = name.length + 9 ∨ nm.length = name.length + 10
  else if 0 ∈ nm then extensionType (lastWord nm) = typeOfName name
  else ascii '.' ∈ nm ∨ extensionType nm.tail = []

instance (nm : List Byte) : Decidable (TypeFits nm) := by
  unfold TypeFits
  infer_instance

/-! ## The header -/

theorem behind_append {c : Byte} {name pre : List Byte} (h : c ∉ pre) (rest : List Byte) :
    behind (c :: name) (pre ++ rest) = behind (c :: name) rest := by
  induction pre with
  | nil => rfl
  | cons b pre ih =>
      rw [List.mem_cons, not_or] at h
      rw [List.cons_append, behind, if_neg, ih h.2]
      simp [List.isPrefixOf, h.1]

theorem cr_not_mem_decimalInt (n : Int) : ascii '\r' ∉ decimalInt n := by
  have hdigits (n : Nat) : ascii '\r' ∉ decimal n := fun h =>
    absurd (isDigit_of_mem_decimal h) (by decide)
  unfold decimalInt
  split
  · rw [List.mem_cons, not_or]
    exact ⟨by decide, hdigits _⟩
  · exact hdigits _

theorem cr_not_mem_contentType (ext : List Byte) : ascii '\r' ∉ contentType ext := by
  unfold contentType
  split
  · decide
  split
  · decide
  split
  · decide
  split
  · decide
  split <;> decide

theorem sentType_okHeader (n : Int) (ext rest : List Byte) :
    sentType (okHeader n (contentType ext) ++ rest) = some (contentType ext) := by
  have hsplit : okHeader n (contentType ext) ++ rest =
      text "HTTP/1.1 200 OK" ++ (text "\r\nContent-Length: " ++ (decimalInt n ++
        (text "\r\nContent-Type: " ++ (contentType ext ++ ascii '\r' ::
          (text "\nConnection: Keep-Alive\r\n\r\n" ++ rest))))) := by
    simp [okHeader, text]
  have hlength (l : List Byte) : behind (text "\r\nContent-Type: ") (text "\r\nContent-Length: " ++ l) =
      behind (text "\r\nContent-Type: ") (text "\nContent-Length: " ++ l) := by
    have hcr : text "\r\nContent-Length: " = ascii '\r' :: text "\nContent-Length: " := by decide
    have hother : (text "\r\nContent-Type: ").isPrefixOf
        (ascii '\r' :: (text "\nContent-Length: " ++ l)) = false := rfl
    rw [hcr, List.cons_append, behind, hother, if_neg Bool.false_ne_true]
  have htype (l : List Byte) : behind (text "\r\nContent-Type: ") (text "\r\nContent-Type: " ++ l) =
      some l := rfl
  have hskip {pre : List Byte} (h : ascii '\r' ∉ pre) (l : List Byte) :
      behind (text "\r\nContent-Type: ") (pre ++ l) = behind (text "\r\nContent-Type: ") l :=
    behind_append h l
  rw [sentType, hsplit, hskip (by decide), hlength, hskip (by decide),
    hskip (cr_not_mem_decimalInt n), htype, Option.map_some,
    takeWhile_append_of_not_mem (cr_not_mem_contentType ext)]
  simp

/-! ## The extension -/

/-- The server's table has the extensions backwards. -/
theorem contentType_reverse (ext : List Byte) : contentType ext.reverse = extensionType ext := by
  have hrev (l : List Byte) : ext.reverse = l ↔ ext = l.reverse := List.reverse_eq_iff
  unfold contentType extensionType
  simp only [hrev]
  rfl

/-- The loop reads the array backwards up to a dot, and the string it makes ends at the first
zero byte. -/
theorem takeWhile_extensionLoop {array : List Byte} {i : Nat} (h : i < array.length) :
    (extensionLoop array i).takeWhile (· ≠ 0) = (lastWord (array.take (i + 1))).reverse := by
  rw [extensionLoop_eq h, lastWord, List.reverse_reverse, List.takeWhile_takeWhile]
  congr 1
  funext b
  exact decide_eq_decide.mpr (by simp only [decide_eq_true_iff, and_comm])

/-- The type that is sent is that for the end of what the array has where the name was copied. -/
theorem contentType_target {nm array path : List Byte} (hlen : nm.length ≤ array.length) :
    (Target.mk array (5 + nm.length) path).contentType =
      extensionType (lastWord (array.take nm.length)) := by
  rw [Target.contentType, Target.extension]
  cases nm with
  | nil =>
      rw [List.length_nil, List.take_zero]
      exact contentType_reverse []
  | cons b nm =>
      have hlast : 5 + (b :: nm).length - 6 = nm.length := by
        rw [List.length_cons]
        omega
      simp only [hlast]
      rw [takeWhile_extensionLoop hlen, contentType_reverse, List.length_cons]

/-! ## The name that was opened -/

theorem takeWhile_append_of_mem {c : Byte} {l : List Byte} (h : c ∈ l) (rest : List Byte) :
    (l ++ rest).takeWhile (· ≠ c) = l.takeWhile (· ≠ c) := by
  rw [List.takeWhile_append, if_neg]
  intro hlen
  have hall : l.takeWhile (· ≠ c) = l := (List.takeWhile_prefix _).eq_of_length hlen
  have hne := List.all_eq_true.mp List.all_takeWhile c (hall.symm ▸ h)
  simp at hne

theorem afterLastDot_append {name : List Byte} (h : ascii '.' ∈ name) (pre : List Byte) :
    afterLastDot (pre ++ name) = afterLastDot name := by
  rw [afterLastDot, afterLastDot, if_pos h, if_pos (List.mem_append_right pre h),
    List.reverse_append, takeWhile_append_of_mem (List.mem_reverse.mpr h)]

theorem typeOfName_webfiles (name : List Byte) :
    typeOfName (text "webfiles/" ++ name) = typeOfName name := by
  by_cases h : ascii '.' ∈ name
  · rw [typeOfName, afterLastDot_append h, typeOfName]
  · have hwhole : ascii '.' ∉ text "webfiles/" ++ name := by
      rw [List.mem_append, not_or]
      exact ⟨by decide, h⟩
    rw [typeOfName, afterLastDot, if_neg hwhole, typeOfName, afterLastDot, if_neg h]

theorem typeOfName_index (pre : List Byte) :
    typeOfName (pre ++ text "index.html") = text "text/html" := by
  rw [typeOfName, afterLastDot_append (by decide)]
  decide

/-- Without zero bytes, only a dot ends the last word. -/
theorem lastWord_of_not_mem {nm : List Byte} (hzero : 0 ∉ nm) :
    lastWord nm = (nm.tail.reverse.takeWhile (· ≠ ascii '.')).reverse := by
  have hsame : ∀ l : List Byte, 0 ∉ l →
      l.takeWhile (fun b => b ≠ ascii '.' ∧ b ≠ 0) = l.takeWhile (· ≠ ascii '.') := by
    intro l
    induction l with
    | nil => exact fun _ => rfl
    | cons b l ih =>
        intro hl
        rw [List.mem_cons, not_or] at hl
        have hb : decide (b ≠ ascii '.' ∧ b ≠ 0) = decide (b ≠ ascii '.') :=
          decide_eq_decide.mpr (and_iff_left (Ne.symm hl.1))
        rw [List.takeWhile_cons, List.takeWhile_cons, hb, ih hl.2]
  rw [lastWord, hsame]
  exact fun h => hzero (List.mem_of_mem_tail (List.mem_reverse.mp h))

/-- The end of a name without zero bytes leads to its type if it has a dot. -/
theorem extensionType_lastWord_iff {nm : List Byte} (hzero : 0 ∉ nm) :
    extensionType (lastWord nm) = typeOfName nm ↔
      ascii '.' ∈ nm ∨ extensionType nm.tail = [] := by
  rw [lastWord_of_not_mem hzero]
  cases nm with
  | nil => decide
  | cons b rest =>
      rw [List.tail_cons]
      by_cases hrest : ascii '.' ∈ rest
      · refine iff_of_true ?_ (.inl (List.mem_cons_of_mem b hrest))
        have hafter := afterLastDot_append hrest [b]
        rw [List.singleton_append] at hafter
        rw [typeOfName, hafter, afterLastDot, if_pos hrest]
        rfl
      · have hword : (rest.reverse.takeWhile (· ≠ ascii '.')).reverse = rest := by
          rw [takeWhile_of_not_mem (mt List.mem_reverse.mp hrest), List.reverse_reverse]
        rw [hword]
        by_cases hb : b = ascii '.'
        · refine iff_of_true ?_ (.inl (by simp [hb]))
          have hwhole : ((b :: rest).reverse.takeWhile (· ≠ ascii '.')).reverse = rest := by
            rw [List.reverse_cons, hb, takeWhile_append_of_not_mem (mt List.mem_reverse.mp hrest)]
            simp
          rw [typeOfName, afterLastDot, if_pos (by simp [hb]), hwhole]
          rfl
        · have hnot : ascii '.' ∉ b :: rest := by
            rw [List.mem_cons, not_or]
            exact ⟨Ne.symm hb, hrest⟩
          rw [typeOfName, afterLastDot, if_neg hnot, or_iff_right hnot]
          rfl

/-! ## The names that are put in -/

theorem extensionType_eq_html {ext : List Byte} :
    extensionType ext = text "text/html" ↔ ext = text "html" ∨ ext = text "htm" := by
  unfold extensionType
  split
  · rename_i h
    exact iff_of_true rfl h
  · rename_i h
    refine iff_of_false ?_ h
    split
    · decide
    split
    · decide
    split
    · decide
    split <;> decide

/-- The last byte of the last word is that of the name. -/
theorem getLast?_lastWord {l : List Byte} {c : Byte} (h : (lastWord l).getLast? = some c) :
    l.getLast? = some c := by
  rw [lastWord, List.getLast?_reverse, List.head?_takeWhile, Option.filter_eq_some_iff,
    List.head?_reverse] at h
  cases l with
  | nil => exact h.1
  | cons b rest =>
      cases rest with
      | nil => cases h.1
      | cons b' rest => exact h.1

/-- For an empty name, the byte that is looked at first is the last of `htm` or `html`. -/
theorem extensionType_index_iff {n : Nat} (h : n ≤ fileNameSize) :
    extensionType (lastWord ((padded fileNameSize (text "webfiles/index.html")).take n)) =
      text "text/html" ↔ n = 18 ∨ n = 19 := by
  have hall : ∀ n : Fin 31,
      extensionType (lastWord ((padded fileNameSize (text "webfiles/index.html")).take n)) =
        text "text/html" ↔ n.val = 18 ∨ n.val = 19 := by
    decide +kernel
  exact hall ⟨n, Nat.lt_succ_of_le h⟩

theorem takeWhile_ne_zero_prefix {nm : List Byte} {size : Nat} :
    (padded size nm).take (nm.takeWhile (· ≠ 0)).length = nm.takeWhile (· ≠ 0) := by
  have hpre : nm.takeWhile (· ≠ 0) <+: padded size nm :=
    (List.takeWhile_prefix _).trans (List.prefix_append _ _)
  exact (List.prefix_iff_eq_take.mp hpre).symm

/-- Bytes with the type of HTML end in the last byte of `html` or `htm`. -/
theorem getLast?_of_extensionType {l : List Byte}
    (h : extensionType (lastWord l) = text "text/html") :
    ∃ c, l.getLast? = some c ∧ (c = ascii 'l' ∨ c = ascii 'm') := by
  rcases extensionType_eq_html.mp h with h | h
  · have hlast : (lastWord l).getLast? = some (ascii 'l') := by
      rw [h]
      rfl
    exact ⟨ascii 'l', getLast?_lastWord hlast, .inl rfl⟩
  · have hlast : (lastWord l).getLast? = some (ascii 'm') := by
      rw [h]
      rfl
    exact ⟨ascii 'm', getLast?_lastWord hlast, .inr rfl⟩

/-- The first nine and the first ten bytes that are put after a name end in `htm` and `html`. -/
theorem extensionType_indexed {name rest : List Byte} {n : Nat} (hne : name ≠ [])
    (h : n = name.length + 9 ∨ n = name.length + 10) :
    extensionType (lastWord ((name ++ (text "index.html" ++ [0] ++ rest)).take n)) =
      text "text/html" := by
  obtain ⟨b, name, rfl⟩ := List.exists_cons_of_ne_nil hne
  rw [extensionType_eq_html]
  rcases h with rfl | rfl
  · have htake : (text "index.html" ++ [0] ++ rest).take 9 = text "index.htm" := rfl
    rw [List.take_length_add_append, htake, lastWord, List.cons_append, List.tail_cons,
      List.reverse_append]
    exact .inr rfl
  · have htake : (text "index.html" ++ [0] ++ rest).take 10 = text "index.html" := rfl
    rw [List.take_length_add_append, htake, lastWord, List.cons_append, List.tail_cons,
      List.reverse_append]
    exact .inl rfl

/-- The byte before the end of the copied name, after `index.html` is put in: the slash, or one
of the bytes that are put in. -/
theorem getElem?_indexed {nm : List Byte} (hne : nm.takeWhile (· ≠ 0) ≠ [])
    (hslash : nm.getLast? = some slash) :
    (overwrite (padded fileNameSize nm) (nm.takeWhile (· ≠ 0)).length
        (text "index.html" ++ [0]))[nm.length - 1]? = some slash ∨
      ∃ i < 11, nm.length = (nm.takeWhile (· ≠ 0)).length + (i + 1) ∧
        (overwrite (padded fileNameSize nm) (nm.takeWhile (· ≠ 0)).length
          (text "index.html" ++ [0]))[nm.length - 1]? =
            some ((text "index.html" ++ [0]).getD i 0) := by
  have hle : (nm.takeWhile (· ≠ (0 : Byte))).length ≤ nm.length :=
    (List.takeWhile_prefix _).length_le
  have hlast : ∀ i, i + 1 = nm.length → (padded fileNameSize nm)[i]? = some slash := by
    intro i hi
    rw [padded, List.getElem?_append_left (by omega), ← hslash, List.getLast?_eq_getElem?, ← hi]
    rfl
  have hpre : (padded fileNameSize nm).take (nm.takeWhile (· ≠ 0)).length =
      nm.takeWhile (· ≠ 0) := takeWhile_ne_zero_prefix
  rw [overwrite, hpre, List.append_assoc]
  generalize nm.takeWhile (· ≠ (0 : Byte)) = name at hne hle hpre ⊢
  have hpos := List.length_pos_of_ne_nil hne
  have hputIn : (text "index.html" ++ [(0 : Byte)]).length = 11 := rfl
  -- before, among or behind the bytes that are put in
  obtain ⟨j, hj⟩ := Nat.exists_eq_add_of_le hle
  rcases Nat.lt_or_ge j 12 with hsmall | hbig
  · cases j with
    | zero =>
        left
        rw [List.getElem?_append_left (by omega), ← hpre, List.getElem?_take_of_lt (by omega)]
        exact hlast _ (by omega)
    | succ i =>
        right
        refine ⟨i, by omega, hj, ?_⟩
        have hindex : nm.length - 1 = name.length + i := by omega
        have hi : i < (text "index.html" ++ [(0 : Byte)]).length := by omega
        rw [hindex, List.getElem?_append_right (by omega), Nat.add_sub_cancel_left,
          List.getElem?_append_left hi, List.getD_eq_getElem?_getD, List.getElem?_eq_getElem hi]
        rfl
  · left
    have hindex : nm.length - 1 = name.length + (j - 1) := by omega
    rw [hindex, List.getElem?_append_right (by omega), Nat.add_sub_cancel_left,
      List.getElem?_append_right (by omega), List.getElem?_drop]
    exact hlast _ (by omega)

/-- For a name that ends in a slash, the byte that is looked at first is the slash, unless there
are zero bytes in the name. -/
theorem extensionType_slash_iff {nm : List Byte} (hne : nm.takeWhile (· ≠ 0) ≠ [])
    (hslash : nm.getLast? = some slash) :
    extensionType (lastWord ((overwrite (padded fileNameSize nm) (nm.takeWhile (· ≠ 0)).length
        (text "index.html" ++ [0])).take nm.length)) = text "text/html" ↔
      nm.length = (nm.takeWhile (· ≠ 0)).length + 9 ∨
        nm.length = (nm.takeWhile (· ≠ 0)).length + 10 := by
  constructor
  · intro h
    obtain ⟨c, hc, hlm⟩ := getLast?_of_extensionType h
    have hnonempty : nm.length ≠ 0 := by
      intro hzero
      rw [List.length_eq_zero_iff.mp hzero] at hslash
      cases hslash
    rw [List.getLast?_take, if_neg hnonempty] at hc
    rcases getElem?_indexed hne hslash with hhere | ⟨i, hi, hlen, hhere⟩
    · rw [hhere, Option.some_or] at hc
      obtain rfl := Option.some.inj hc
      exact absurd hlm (by decide)
    · rw [hhere, Option.some_or] at hc
      obtain rfl := Option.some.inj hc
      have hfound : ∀ i < 11, ((text "index.html" ++ [0]).getD i 0 = ascii 'l' ∨
          (text "index.html" ++ [0]).getD i 0 = ascii 'm') → i = 8 ∨ i = 9 := by decide
      have heq := hfound i hi hlm
      omega
  · intro h
    rw [overwrite, takeWhile_ne_zero_prefix, List.append_assoc]
    exact extensionType_indexed hne h

/-- The type of the target of a request, by the bytes that were copied. -/
theorem contentType_eq_iff {buf nm : List Byte} {t : Target} (hname : copiedName buf = some nm)
    (ht : target buf = some t) : t.contentType = typeOfName t.path ↔ TypeFits nm := by
  obtain ⟨hlen, hterm, hresolve⟩ := fits_of_target hname ht
  have hpadded : (padded fileNameSize nm).length = fileNameSize := length_padded hlen
  rw [resolve_padded hterm] at hresolve
  unfold TypeFits
  split at hresolve
  · rename_i hnil
    obtain rfl := Option.some.inj hresolve
    simp only [if_pos hnil]
    have hindex : typeOfName (text "webfiles/index.html") = text "text/html" :=
      typeOfName_index (text "webfiles/")
    rw [contentType_target (hlen.trans_eq rfl), hindex, extensionType_index_iff hlen]
  · rename_i hne
    simp only [if_neg hne]
    split at hresolve
    · rename_i hslash
      rw [Option.ite_none_right_eq_some] at hresolve
      obtain ⟨hfit, hresolve⟩ := hresolve
      obtain rfl := Option.some.inj hresolve
      have hroom : (overwrite (padded fileNameSize nm) (nm.takeWhile (· ≠ 0)).length
          (text "index.html" ++ [0])).length = fileNameSize := by
        rw [length_overwrite, hpadded]
        rw [hpadded]
        exact hfit
      rw [if_pos hslash, contentType_target (by rw [hroom]; exact hlen), typeOfName_index,
        extensionType_slash_iff hne hslash]
    · rename_i hslash
      obtain rfl := Option.some.inj hresolve
      have htake : (padded fileNameSize nm).take nm.length = nm := List.take_left' rfl
      rw [if_neg hslash, contentType_target (by rw [hpadded]; exact hlen), htake,
        typeOfName_webfiles]
      split
      · rfl
      · rename_i hzero
        rw [takeWhile_of_not_mem hzero]
        exact extensionType_lastWord_iff hzero

variable {files : Files} {request : List Byte} {s s' : Sink Byte}

/-- A response with a file has the type of the file that was opened exactly if the bytes copied
from the request lead to it. -/
theorem sentType_iff {nm file : List Byte} {t : Target}
    (hget : (requestBuf request).take 3 = text "GET")
    (hname : copiedName (requestBuf request) = some nm)
    (ht : target (requestBuf request) = some t) (hfile : files t.path = some file)
    (hs : s.Reliable) (hfresh : s.sent = []) (hserve : serve files request s = some s') :
    sentType s'.sent = some (typeOfName t.path) ↔ TypeFits nm := by
  have hok : sendOk t file s = some s' := by
    rw [serve] at hserve
    change (if (requestBuf request).take 3 = text "GET" then
      (target (requestBuf request)).bind _ else _) = _ at hserve
    rw [if_pos hget, ht, Option.bind_some] at hserve
    simpa only [hfile] using hserve
  have hsent := sendOk_sent hs hok
  rw [hfresh, List.nil_append] at hsent
  rw [hsent, Target.contentType, sentType_okHeader, Option.some.injEq, ← Target.contentType]
  exact contentType_eq_iff hname ht

/-- An index and a file whose name has no dot. -/
def indexAndNotes : Files := fun path =>
  if path = text "webfiles/index.html" then some (text "<p>")
  else if path = text "webfiles/atxt" then some (text "notes")
  else none

theorem sentType_threeBytes :
    ∃ s', serve threeBytes getThreeBytes (.fresh fun _ => 5) = some s' ∧
      sentType s'.sent = some (text "text/plain") := by
  obtain ⟨s', hserve⟩ : ∃ s', serve threeBytes getThreeBytes (.fresh fun _ => 5) = some s' :=
    Option.isSome_iff_exists.mp (by decide +kernel)
  have ht : target (requestBuf getThreeBytes) =
      some ⟨padded fileNameSize (text "a.txt"), 10, text "webfiles/a.txt"⟩ := by decide +kernel
  have hname : copiedName (requestBuf getThreeBytes) = some (text "a.txt") := by decide +kernel
  have hiff := sentType_iff (by decide +kernel) hname ht
    (by decide : threeBytes (text "webfiles/a.txt") = some (text "abc"))
    (fun _ => (by decide : (0 : Int) < 5)) rfl hserve
  exact ⟨s', hserve, hiff.mpr (by decide)⟩

/-- The index is sent without a type for the empty path, and a name without a dot gets that of the
extension it ends in. -/
theorem wrong_types_sent :
    (∃ t, target (requestBuf (text "GET / HTTP/1.1\r\n\r\n")) = some t ∧
      ((serve indexAndNotes (text "GET / HTTP/1.1\r\n\r\n") (.fresh fun _ => 5)).map
        fun s => sentType s.sent) = some (some []) ∧
      typeOfName t.path = text "text/html") ∧
    ∃ t, target (requestBuf (text "GET /atxt HTTP/1.1\r\n\r\n")) = some t ∧
      ((serve indexAndNotes (text "GET /atxt HTTP/1.1\r\n\r\n") (.fresh fun _ => 5)).map
        fun s => sentType s.sent) = some (some (text "text/plain")) ∧
      typeOfName t.path = [] := by
  have hindex : target (requestBuf (text "GET / HTTP/1.1\r\n\r\n")) =
      some ⟨padded fileNameSize (text "webfiles/index.html"), 5, text "webfiles/index.html"⟩ := by
    decide +kernel
  have hnotes : target (requestBuf (text "GET /atxt HTTP/1.1\r\n\r\n")) =
      some ⟨padded fileNameSize (text "atxt"), 9, text "webfiles/atxt"⟩ := by
    decide +kernel
  exact ⟨⟨_, hindex, by decide +kernel, by decide +kernel⟩, _, hnotes, by decide +kernel,
    by decide +kernel⟩

end NetworkStack.Web
