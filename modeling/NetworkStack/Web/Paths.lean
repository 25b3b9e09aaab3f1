import NetworkStack.Lib.Path
import NetworkStack.Web.Server

/-!
# Which file a request opens

The name is cut out of the request line by its distance from both ends. It is put behind
`webfiles/` as it is, so what it may lead to depends on its components; a name that ends in a
slash is opened without `webfiles/`.
-/

namespace NetworkStack.Web

open CString Decimal Transfer NetworkStack.Path

/-- `GET /p HTTP/1.x` and its line end, with anything behind it. -/
def getRequest (p : List Byte) (x : Byte) (rest : List Byte) : List Byte :=
  text "GET /" ++ p ++ text " HTTP/1." ++ [x] ++ text "\r\n" ++ rest

/-- What the child process has in `buf` once it has read the request. -/
def requestBuf (request : List Byte) : List Byte := padded 4096 (request.take 4096)

/-- The text is on one line. -/
def OnLine (s : List Byte) : Prop := ascii '\r' ∉ s ∧ ascii '\n' ∉ s

/-- The file that `p` names. -/
def wanted (p : List Byte) : List Byte :=
  text "webfiles/" ++ p ++
    if p = [] ∨ p.getLast? = some slash then text "index.html" else []

/-- The path leads into `webfiles`. -/
def Inside (cwd : List (List Byte)) (path : List Byte) : Prop :=
  cwd ++ [text "webfiles"] <+: Path.resolve cwd path

/-- The request opens the file it names, and that file is in `webfiles`. -/
def OpensWanted (cwd : List (List Byte)) (request p : List Byte) : Prop :=
  ∃ t, target (requestBuf request) = some t ∧ t.path = wanted p ∧ Inside cwd t.path

/-- The line scan stops at the first line end. -/
theorem endOfLine_append {pre line rest : List Byte} (hline : OnLine line) {fuel : Nat}
    (hfuel : line.length < fuel) :
    endOfLine (pre ++ (line ++ ascii '\r' :: rest)) fuel pre.length =
      some (pre.length + line.length) := by
  induction line generalizing pre fuel with
  | nil =>
      obtain ⟨fuel, rfl⟩ := Nat.exists_eq_add_one_of_ne_zero (Nat.ne_of_gt hfuel)
      simp [endOfLine]
  | cons b line ih =>
      obtain ⟨fuel, rfl⟩ := Nat.exists_eq_add_one_of_ne_zero (by omega : fuel ≠ 0)
      rw [OnLine, List.mem_cons, List.mem_cons, not_or, not_or] at hline
      obtain ⟨⟨hcr, hcr'⟩, ⟨hlf, hlf'⟩⟩ := hline
      obtain ⟨c, more, hmore, hc⟩ :
          ∃ c more, line ++ ascii '\r' :: rest = c :: more ∧ c ≠ ascii '\n' := by
        cases line with
        | nil => exact ⟨_, _, rfl, by decide⟩
        | cons c line =>
            rw [List.mem_cons, not_or] at hlf'
            exact ⟨_, _, rfl, Ne.symm hlf'.1⟩
      have hhere : (pre ++ (b :: line ++ ascii '\r' :: rest))[pre.length]? = some b := by simp
      have hnext : (pre ++ (b :: line ++ ascii '\r' :: rest))[pre.length + 1]? = some c := by
        rw [List.cons_append, hmore, List.getElem?_append_right (by omega)]
        simp
      have hshift : pre ++ (b :: line ++ ascii '\r' :: rest) =
          (pre ++ [b]) ++ (line ++ ascii '\r' :: rest) := by simp
      have hlen : (pre ++ [b]).length = pre.length + 1 := by simp
      have hrest := @ih (pre ++ [b]) ⟨hcr', hlf'⟩ fuel (Nat.lt_of_succ_lt_succ hfuel)
      rw [← hshift, hlen] at hrest
      rw [endOfLine, hhere, hnext]
      simp only [Option.bind_eq_bind, Option.bind_some, if_neg (Ne.symm hcr), if_neg hc]
      rw [hrest, List.length_cons, Nat.add_assoc, Nat.add_comm 1]

/-! ## The name in the request -/

/-- The name of a request, and where it leads. The name is a string up to its first zero byte,
and whether it ends in a slash is seen at the last byte that was copied. -/
theorem resolve_padded {nm : List Byte} (h : nm.length < fileNameSize ∨ 0 ∈ nm) :
    resolve (padded fileNameSize nm) (5 + nm.length) =
      if nm.takeWhile (· ≠ 0) = [] then
        some ⟨padded fileNameSize (text "webfiles/index.html"), 5 + nm.length,
          text "webfiles/index.html"⟩
      else if nm.getLast? = some slash then
        if (nm.takeWhile (· ≠ 0)).length + 11 ≤ fileNameSize then
          some ⟨overwrite (padded fileNameSize nm) (nm.takeWhile (· ≠ 0)).length
              (text "index.html" ++ [0]), 5 + nm.length,
            nm.takeWhile (· ≠ 0) ++ text "index.html"⟩
        else none
      else some ⟨padded fileNameSize nm, 5 + nm.length,
        text "webfiles/" ++ nm.takeWhile (· ≠ 0)⟩ := by
  rw [resolve, cString_padded_takeWhile h]
  simp only [Option.bind_eq_bind, Option.bind_some, Option.pure_def]
  split
  · rfl
  · rename_i hne
    have hnm : nm ≠ [] := by
      rintro rfl
      exact hne rfl
    have hlast : (padded fileNameSize nm)[5 + nm.length - 6]? = nm.getLast? := by
      have hpos := List.length_pos_of_ne_nil hnm
      rw [padded, List.getElem?_append_left (by omega), List.getLast?_eq_getElem?]
      congr 1
      omega
    rw [hlast]
    rfl

/-- The bytes that are copied to `file_name`, whether they fit or not. -/
def copiedName (buf : List Byte) : Option (List Byte) :=
  (endOfLine buf buf.length 4).map fun j => (buf.take (j - 9)).drop 5

theorem target_eq (buf : List Byte) : target buf = (copiedName buf).bind fun nm =>
    if nm.length ≤ fileNameSize then resolve (padded fileNameSize nm) (5 + nm.length) else none := by
  rw [target, copiedName]
  cases endOfLine buf buf.length 4 <;> rfl

/-- The name of a request that has a target fits, with its zero byte. -/
theorem fits_of_target {buf nm : List Byte} {t : Target} (hname : copiedName buf = some nm)
    (h : target buf = some t) :
    nm.length ≤ fileNameSize ∧ (nm.length < fileNameSize ∨ 0 ∈ nm) ∧
      resolve (padded fileNameSize nm) (5 + nm.length) = some t := by
  rw [target_eq, hname, Option.bind_some, Option.ite_none_right_eq_some] at h
  refine ⟨h.1, ?_, h.2⟩
  by_contra hnot
  rw [not_or] at hnot
  have hpad : padded fileNameSize nm = nm := by
    rw [padded, Nat.sub_eq_zero_of_le (Nat.le_of_not_lt hnot.1)]
    exact List.append_nil nm
  have hnone : resolve (padded fileNameSize nm) (5 + nm.length) = none := by
    rw [resolve, hpad, cString_eq_none hnot.2]
    rfl
  rw [hnone] at h
  cases h.2

/-- The extension is read backwards from the last byte that was copied, up to a dot or the first
byte of the name. -/
theorem extensionLoop_eq {array : List Byte} {i : Nat} (h : i < array.length) :
    extensionLoop array i = (array.take (i + 1)).tail.reverse.takeWhile (· ≠ ascii '.') := by
  induction i with
  | zero =>
      cases array with
      | nil => cases h
      | cons b array => rfl
  | succ i ih =>
      have hget : array.getD (i + 1) 0 = array.get ⟨i + 1, h⟩ := by
        simp [List.getD, List.getElem?_eq_getElem h]
      have hne : array.take (i + 1) ≠ [] := by
        intro hnil
        have hlen := congrArg List.length hnil
        rw [List.length_take, List.length_nil] at hlen
        omega
      have htail : (array.take (i + 2)).tail =
          (array.take (i + 1)).tail ++ [array.get ⟨i + 1, h⟩] := by
        rw [List.take_succ_eq_append_getElem h, List.tail_append_of_ne_nil hne]
        rfl
      rw [extensionLoop, hget, htail, List.reverse_append, List.reverse_singleton,
        List.singleton_append]
      by_cases hdot : array.get ⟨i + 1, h⟩ = ascii '.'
      · rw [if_pos hdot, List.takeWhile_cons, if_neg (by rw [hdot]; decide)]
      · rw [if_neg hdot, List.takeWhile_cons, if_pos (decide_eq_true hdot),
          ih (Nat.lt_of_succ_lt h)]

theorem requestBuf_getRequest {p : List Byte} (hp : p.length < fileNameSize) (x : Byte)
    (rest : List Byte) :
    ∃ rest', requestBuf (getRequest p x rest) =
      text "GET " ++ ((text "/" ++ p ++ text " HTTP/1." ++ [x]) ++ ascii '\r' :: rest') := by
  have hsplit : getRequest p x rest =
      text "GET " ++ ((text "/" ++ p ++ text " HTTP/1." ++ [x]) ++ ascii '\r' ::
        (ascii '\n' :: rest)) := by
    simp [getRequest, text]
  have hlen : (text "GET " ++ (text "/" ++ p ++ text " HTTP/1." ++ [x])).length < 4096 := by
    unfold fileNameSize at hp
    simp [text]
    omega
  obtain ⟨n, hn⟩ := Nat.exists_eq_add_of_lt hlen
  refine ⟨(ascii '\n' :: rest).take n ++
    List.replicate (4096 - ((getRequest p x rest).take 4096).length) 0, ?_⟩
  rw [requestBuf, padded]
  have htake : (getRequest p x rest).take 4096 =
      text "GET " ++ ((text "/" ++ p ++ text " HTTP/1." ++ [x]) ++ ascii '\r' ::
        (ascii '\n' :: rest).take n) := by
    rw [hsplit, ← List.append_assoc, List.take_append, List.take_of_length_le hlen.le, hn,
      Nat.add_assoc, Nat.add_sub_cancel_left, List.take_succ_cons]
    exact List.append_assoc _ _ _
  rw [htake]
  simp

/-- The path of a request line is the name that is copied. -/
theorem target_getRequest {p : List Byte} (hp : p.length < fileNameSize) (hline : OnLine p)
    {x : Byte} (hx : OnLine [x]) (rest : List Byte) :
    target (requestBuf (getRequest p x rest)) =
      resolve (padded fileNameSize p) (5 + p.length) := by
  obtain ⟨rest', hbuf⟩ := requestBuf_getRequest hp x rest
  have hall : OnLine (text "/" ++ p ++ text " HTTP/1." ++ [x]) := by
    constructor
    · simp only [List.mem_append, not_or]
      exact ⟨⟨⟨by decide, hline.1⟩, by decide⟩, hx.1⟩
    · simp only [List.mem_append, not_or]
      exact ⟨⟨⟨by decide, hline.2⟩, by decide⟩, hx.2⟩
  have hlen : (text "/" ++ p ++ text " HTTP/1." ++ [x]).length = p.length + 10 := by
    simp [text]
  have hfuel : (text "/" ++ p ++ text " HTTP/1." ++ [x]).length <
      (requestBuf (getRequest p x rest)).length := by
    rw [hbuf]
    simp only [List.length_append, List.length_cons]
    omega
  have hend := @endOfLine_append (text "GET ") _ rest' hall _ hfuel
  have hget : (text "GET ").length = 4 := rfl
  rw [← hbuf, hlen, hget] at hend
  have hname : ((requestBuf (getRequest p x rest)).take (4 + (p.length + 10) - 9)).drop 5 = p := by
    have hfive : requestBuf (getRequest p x rest) =
        text "GET /" ++ (p ++ (text " HTTP/1." ++ [x] ++ ascii '\r' :: rest')) := by
      rw [hbuf]
      simp [text]
    have hcount : 4 + (p.length + 10) - 9 = (text "GET /" ++ p).length := by
      simp [text]
      omega
    rw [hcount, hfive, ← List.append_assoc, List.take_left' rfl]
    rfl
  simp only [target, hend, Option.bind_eq_bind, Option.bind_some, hname, if_pos hp.le]

/-! ## Confinement -/

/-- A path below `webfiles/` leads where its rest leads from there. -/
theorem resolve_webfiles (cwd : List (List Byte)) (p : List Byte) :
    Path.resolve cwd (text "webfiles/" ++ p) = follow (cwd ++ [text "webfiles"]) p := by
  have hsplit : text "webfiles/" ++ p = text "webfiles" ++ slash :: p := by
    simp [text, slash]
  have hhead : (text "webfiles/" ++ p).head? ≠ some slash := by
    change some (ascii 'w') ≠ some slash
    decide
  rw [Path.resolve, if_neg hhead, hsplit, follow_append (by decide)]
  rfl

/-- A path that is opened is a string. -/
theorem zero_not_mem_path {fileName : List Byte} {k : Nat} {t : Target}
    (h : resolve fileName k = some t) : 0 ∉ t.path := by
  simp only [resolve, Option.bind_eq_bind, Option.bind_eq_some_iff] at h
  obtain ⟨name, hname, h⟩ := h
  have hzero : (0 : Byte) ∉ name := by
    rw [cString, Option.ite_none_right_eq_some] at hname
    rw [← Option.some.inj hname.2]
    exact not_mem_takeWhile fileName
  split at h
  · obtain rfl := Option.some.inj h
    change (0 : Byte) ∉ text "webfiles/index.html"
    decide
  · split at h
    · rw [Option.ite_none_right_eq_some] at h
      obtain rfl := Option.some.inj h.2
      simp only [List.mem_append, not_or]
      exact ⟨hzero, by decide⟩
    · obtain rfl := Option.some.inj h
      simp only [List.mem_append, not_or]
      exact ⟨by decide, hzero⟩

/-- A request opens the file it names, in `webfiles`, exactly if its path has no zero byte, does
not end in a slash and does not lead out of `webfiles`. -/
theorem opensWanted_iff (cwd : List (List Byte)) {p : List Byte} (hp : p.length < fileNameSize)
    (hline : OnLine p) {x : Byte} (hx : OnLine [x]) (rest : List Byte) :
    OpensWanted cwd (getRequest p x rest) p ↔
      0 ∉ p ∧ p.getLast? ≠ some slash ∧
        cwd ++ [text "webfiles"] <+: follow (cwd ++ [text "webfiles"]) p := by
  unfold OpensWanted
  rw [target_getRequest hp hline hx]
  by_cases hzero : 0 ∈ p
  · -- the path that is opened is cut at the zero byte
    refine iff_of_false ?_ fun h => h.1 hzero
    rintro ⟨t, ht, hpath, -⟩
    refine zero_not_mem_path ht ?_
    rw [hpath, wanted, List.mem_append, List.mem_append]
    exact .inl (.inr hzero)
  · rw [resolve_padded (.inl hp), takeWhile_of_not_mem hzero]
    by_cases hnil : p = []
    · subst hnil
      refine iff_of_true ⟨_, if_pos rfl, rfl, ?_⟩ ⟨hzero, by simp, List.prefix_rfl⟩
      change _ <+: Path.resolve cwd (text "webfiles/" ++ text "index.html")
      rw [resolve_webfiles]
      exact List.prefix_append _ _
    · rw [if_neg hnil]
      by_cases hslash : p.getLast? = some slash
      · rw [if_pos hslash]
        refine iff_of_false ?_ fun h => h.2.1 hslash
        rintro ⟨t, ht, hpath, -⟩
        rw [Option.ite_none_right_eq_some] at ht
        obtain rfl := Option.some.inj ht.2
        rw [wanted, if_pos (.inr hslash)] at hpath
        have hlen := congrArg List.length hpath
        simp [text] at hlen
      · rw [if_neg hslash]
        have hwanted : wanted p = text "webfiles/" ++ p := by
          rw [wanted, if_neg (by simp [hnil, hslash]), List.append_nil]
        constructor
        · rintro ⟨t, ht, -, hin⟩
          obtain rfl := Option.some.inj ht
          rw [Inside, resolve_webfiles] at hin
          exact ⟨hzero, hslash, hin⟩
        · rintro ⟨-, -, hin⟩
          refine ⟨_, rfl, hwanted.symm, ?_⟩
          rw [Inside, resolve_webfiles]
          exact hin

/-- The directory the server was started in. -/
def serverDir : List (List Byte) := [text "srv", text "Project-1"]

theorem opensWanted_image :
    OpensWanted serverDir (getRequest (text "images/../a.txt") (ascii '1') (text "\r\n"))
      (text "images/../a.txt") :=
  (opensWanted_iff serverDir (by decide) ⟨by decide, by decide⟩ ⟨by decide, by decide⟩ _).mpr
    (by decide)

/-- A path with `..` opens a file outside `webfiles`, and a path that ends in a slash a file in
another directory. -/
theorem opens_outside_webfiles :
    (∃ t, target (requestBuf (getRequest (text "../server.c") (ascii '1') (text "\r\n"))) = some t ∧
      Path.resolve serverDir t.path = serverDir ++ [text "server.c"] ∧
      ¬OpensWanted serverDir (getRequest (text "../server.c") (ascii '1') (text "\r\n"))
        (text "../server.c")) ∧
    ∃ t, target (requestBuf (getRequest (text "images/") (ascii '1') (text "\r\n"))) = some t ∧
      t.path = text "images/index.html" ∧
      ¬OpensWanted serverDir (getRequest (text "images/") (ascii '1') (text "\r\n"))
        (text "images/") := by
  have hup : target (requestBuf (getRequest (text "../server.c") (ascii '1') (text "\r\n"))) =
      some ⟨padded fileNameSize (text "../server.c"), 16, text "webfiles/../server.c"⟩ := by
    decide +kernel
  have hslash : target (requestBuf (getRequest (text "images/") (ascii '1') (text "\r\n"))) =
      some ⟨padded fileNameSize (text "images/index.html"), 12, text "images/index.html"⟩ := by
    decide +kernel
  refine ⟨⟨_, hup, by decide, ?_⟩, _, hslash, rfl, ?_⟩
  · rintro ⟨t, ht, -, hin⟩
    obtain rfl := Option.some.inj (hup.symm.trans ht)
    revert hin
    unfold Inside
    decide
  · rintro ⟨t, ht, hpath, -⟩
    obtain rfl := Option.some.inj (hslash.symm.trans ht)
    revert hpath
    decide

end NetworkStack.Web
