import NetworkStack.Lib.CString
import NetworkStack.Lib.Decimal
import NetworkStack.Lib.Transfer

/-!
# The web server

A child process reads one request, opens the file it names and sends a header and the
file. The file's length is taken with `ftell` before the header is written; the file itself is
read in a second pass, as many bytes at a time as a pointer has, and every read is written
out before the next one.

The arrays of the server have the sizes of the source. An access outside them has no meaning,
and the response is `none` then. What the server prints on its own terminal is left out.
-/

namespace NetworkStack.Web

open CString Decimal Transfer

/-- The files that can be opened, by their path. -/
abbrev Files := List Byte → Option (List Byte)

/-! ## The request -/

/-- `sizeof(file_name)`. -/
def fileNameSize : Nat := 30

/-- The loop that looks for the end of the first line, from `j` on. -/
def endOfLine (buf : List Byte) : Nat → Nat → Option Nat
  | 0, _ => none
  | fuel + 1, j => do
      if (← buf[j]?) = ascii '\r' then return j
      else if (← buf[j + 1]?) = ascii '\n' then return j
      else endOfLine buf fuel (j + 1)

/-- The file that a request asks for: `file_name` at the end, the index `k` behind the
name that was copied, and the path that is opened. -/
structure Target where
  fileName : List Byte
  k : Nat
  path : List Byte
  deriving DecidableEq, Repr

/-- The path for the name in `file_name`. -/
def resolve (fileName : List Byte) (k : Nat) : Option Target := do
  let name ← cString fileName
  if name = [] then
    let index := text "webfiles/index.html"
    return ⟨padded fileNameSize index, k, index⟩
  else if fileName[k - 6]? = some (ascii '/') then
    let s := text "index.html" ++ [0]
    if name.length + s.length ≤ fileNameSize then
      return ⟨overwrite fileName name.length s, k, name ++ text "index.html"⟩
    else none
  else return ⟨fileName, k, text "webfiles/" ++ name⟩

/-- The name in the first line of a request that starts with `GET`. -/
def target (buf : List Byte) : Option Target := do
  let j ← endOfLine buf buf.length 4
  let name := (buf.take (j - 9)).drop 5
  if name.length ≤ fileNameSize then resolve (padded fileNameSize name) (5 + name.length)
  else none

/-! ## The response -/

/-- `sizeof(extension)`. -/
def extensionSize : Nat := 20

/-- The loop that takes the extension off the end of the name, from the index `i` down. For an
empty name the byte in front of the array is read, and the loop ends whatever it is. -/
def extensionLoop (fileName : List Byte) : Nat → List Byte
  | 0 => []
  | i + 1 =>
      let b := fileName.getD (i + 1) 0
      if b = ascii '.' then [] else b :: extensionLoop fileName i

/-- `content_type` for an extension, which is read from behind. -/
def contentType (extension : List Byte) : List Byte :=
  if extension = text "lmth" ∨ extension = text "mth" then text "text/html"
  else if extension = text "txt" then text "text/plain"
  else if extension = text "gepj" ∨ extension = text "gpj" then text "image/jpeg"
  else if extension = text "fig" then text "image/gif"
  else if extension = text "fdp" then text "Application/pdf"
  else []

/-- The array `extension` for a file that was opened. -/
def Target.extension (t : Target) : List Byte := extensionLoop t.fileName (t.k - 6)

/-- The type that is sent with the file. -/
def Target.contentType (t : Target) : List Byte := Web.contentType (t.extension.takeWhile (· ≠ 0))

/-- The header of a response, with `sz - 1` as an `int`. -/
def okHeader (length : Int) (contentType : List Byte) : List Byte :=
  text "HTTP/1.1 200 OK\r\nContent-Length: " ++ decimalInt length ++
    text "\r\nContent-Type: " ++ contentType ++ text "\r\nConnection: Keep-Alive\r\n\r\n"

def notFound : List Byte :=
  text "HTTP/1.1 404 Not Found\r\nServer: NCSA/1.5\r\nContent-type: text/html\r\n\r\n  <h1> ERROR 404 . The file is not found </h1>"

/-- The array `text` takes the bytes up to the first that is `EOF` as a `char`. It is
allocated with `sz` bytes, or not at all if `sz` is negative. -/
def fitsText (file : List Byte) : Prop :=
  (file.takeWhile (· ≠ 0xff)).length ≤ (BitVec.ofNat 32 file.length).toInt.toNat

instance (file : List Byte) : Decidable (fitsText file) :=
  inferInstanceAs (Decidable (_ ≤ _))

/-- The second pass: read `sizeof(buf)` bytes, the size of a pointer, and write them, until
nothing is left. -/
def sendFile : Nat → Sink Byte → List Byte → Option Int × Sink Byte
  | 0, s, _ => (none, s)
  | _ + 1, s, [] => (none, s)
  | fuel + 1, s, b :: file =>
      match s.writeAll ((b :: file).take 8) with
      | (some rc, s) => (some rc, s)
      | (none, s) => sendFile fuel s ((b :: file).drop 8)

/-- The response with a file. A write that fails ends the process. -/
def sendOk (t : Target) (file : List Byte) (s : Sink Byte) : Option (Sink Byte) :=
  if t.extension.length < extensionSize ∧ fitsText file then
    match s.writeAll (okHeader (BitVec.ofNat 32 file.length - 1).toInt t.contentType) with
    | (some _, s) => some s
    | (none, s) => some (sendFile file.length s file).2
  else none

/-- What a child process does with the bytes that its `read` returns. -/
def serve (files : Files) (request : List Byte) (s : Sink Byte) : Option (Sink Byte) :=
  let buf := padded 4096 (request.take 4096)
  if buf.take 3 = text "GET" then do
    let t ← target buf
    match files t.path with
    | none => return (s.writeAll notFound).2
    | some file => sendOk t file s
  else some s

/-! ## What a client makes of it -/

/-- What is behind the first occurrence of `name`. -/
def behind (name : List Byte) : List Byte → Option (List Byte)
  | [] => none
  | b :: rest =>
      if name.isPrefixOf (b :: rest) then some ((b :: rest).drop name.length) else behind name rest

/-- The length that a header announces. -/
def contentLength (header : List Byte) : Option Nat := do
  let value ← behind (text "\r\nContent-Length: ") header
  let digits := value.takeWhile isDigit
  if digits ≠ [] ∧ (value.dropWhile isDigit).take 2 = text "\r\n" then some (number digits) else none

/-- A header for a body of `n` bytes. -/
structure Announces (header : List Byte) (n : Nat) : Prop where
  status : text "HTTP/1.1 200" <+: header
  blankLine : text "\r\n\r\n" <:+ header
  length : contentLength header = some n

/-- The file is sent behind a header for its length. -/
def Answered (files : Files) (request : List Byte) (s : Sink Byte) (file : List Byte) : Prop :=
  ∃ s', serve files request s = some s' ∧
    ∃ header, s'.sent = header ++ file ∧ Announces header file.length

/-! ## Short writes -/

variable {s : Sink Byte} {file : List Byte}

theorem sendFile_eq (hs : s.Reliable) {fuel : Nat} (h : file.length ≤ fuel) :
    (sendFile fuel s file).2.sent = s.sent ++ file := by
  induction fuel generalizing s file with
  | zero =>
      obtain rfl := List.eq_nil_of_length_eq_zero (Nat.le_zero.mp h)
      exact (List.append_nil _).symm
  | succ fuel ih =>
      cases file with
      | nil => exact (List.append_nil _).symm
      | cons b file =>
          obtain ⟨s', hwrite, hs', hsent⟩ := Sink.writeAll_eq hs ((b :: file).take 8)
          have hlen : ((b :: file).drop 8).length ≤ fuel := by
            rw [List.length_drop, List.length_cons]
            rw [List.length_cons] at h
            omega
          calc (sendFile (fuel + 1) s (b :: file)).2.sent
              = (sendFile fuel s' ((b :: file).drop 8)).2.sent := by rw [sendFile, hwrite]
            _ = s.sent ++ (b :: file).take 8 ++ (b :: file).drop 8 := by rw [ih hs' hlen, hsent]
            _ = s.sent ++ b :: file := by rw [List.append_assoc, List.take_append_drop]

/-- Whatever the writes take at a time, the header and the whole file are sent, if the server gets
that far. -/
theorem sendOk_sent (hs : s.Reliable) {t : Target} {s' : Sink Byte} (h : sendOk t file s = some s') :
    s'.sent = s.sent ++ okHeader (BitVec.ofNat 32 file.length - 1).toInt t.contentType ++ file := by
  unfold sendOk at h
  split at h
  · obtain ⟨s'', hwrite, hs'', hsent⟩ := Sink.writeAll_eq hs
      (okHeader (BitVec.ofNat 32 file.length - 1).toInt t.contentType)
    rw [hwrite] at h
    obtain rfl := Option.some.inj h
    rw [sendFile_eq hs'' (Nat.le_refl _), hsent]
  · cases h

/-! ## The length in the header -/

theorem contentLength_okHeader (n : Nat) (type : List Byte) :
    contentLength (okHeader n type) = some n := by
  have hbehind : behind (text "\r\nContent-Length: ") (okHeader n type) =
      some (decimal n ++ (text "\r\nContent-Type: " ++ type ++
        text "\r\nConnection: Keep-Alive\r\n\r\n")) := by
    have hdecimal : decimalInt n = decimal n := if_neg (by omega)
    rw [okHeader, hdecimal, List.append_assoc, List.append_assoc, List.append_assoc]
    rfl
  have hrest : ∀ b ∈ (text "\r\nContent-Type: " ++ type ++
      text "\r\nConnection: Keep-Alive\r\n\r\n").head?, isDigit b = false := by
    rintro b ⟨⟩
    rfl
  rw [contentLength, hbehind]
  simp only [Option.bind_eq_bind, Option.bind_some]
  rw [takeWhile_decimal hrest, dropWhile_decimal hrest, number_decimal,
    if_pos ⟨decimal_ne_nil, rfl⟩]

/-- A length that is negative is no length. -/
theorem contentLength_okHeader_neg {n : Int} (h : n < 0) (type : List Byte) :
    contentLength (okHeader n type) = none := by
  rw [okHeader, decimalInt, if_pos h]
  rfl

/-- One less than the length of a file, as an `int`, is not the length of the file. -/
theorem toInt_ne_length (n : Nat) (h : 0 ≤ (BitVec.ofNat 32 n - 1).toInt) :
    (BitVec.ofNat 32 n - 1).toInt.toNat ≠ n := by
  have hsub : (BitVec.ofNat 32 n - 1).toNat = (2 ^ 32 - 1 + n % 2 ^ 32) % 2 ^ 32 := by
    rw [BitVec.toNat_sub, BitVec.toNat_ofNat]
    rfl
  rw [BitVec.toInt_eq_toNat_cond] at h ⊢
  split at h
  · rename_i hsmall
    rw [if_pos hsmall]
    omega
  · omega

/-- No header that the server sends with a file announces its length. -/
theorem not_announces (file type : List Byte) :
    ¬Announces (okHeader (BitVec.ofNat 32 file.length - 1).toInt type) file.length := by
  intro h
  have hlength := h.length
  by_cases hneg : (BitVec.ofNat 32 file.length - 1).toInt < 0
  · rw [contentLength_okHeader_neg hneg] at hlength
    cases hlength
  · have hpos : 0 ≤ (BitVec.ofNat 32 file.length - 1).toInt := Int.not_lt.mp hneg
    rw [← Int.toNat_of_nonneg hpos, contentLength_okHeader] at hlength
    exact toInt_ne_length file.length hpos (Option.some.inj hlength)

/-- Whatever file is asked for and however the writes are cut, the length in the header is not that of
the file behind it. -/
theorem not_answered {files : Files} {request : List Byte} {t : Target}
    (htarget : target (padded 4096 (request.take 4096)) = some t)
    (hfile : files t.path = some file) (hs : s.Reliable) (hfresh : s.sent = []) :
    ¬Answered files request s file := by
  rintro ⟨s', hserve, header, hsent, hheader⟩
  simp only [serve] at hserve
  split at hserve
  · simp only [htarget, hfile, Option.bind_eq_bind, Option.bind_some] at hserve
    have hok := sendOk_sent hs hserve
    rw [hfresh, List.nil_append, hsent] at hok
    obtain rfl := List.append_cancel_right hok
    exact not_announces file t.contentType hheader
  · -- Nothing is sent.
    obtain rfl := Option.some.inj hserve
    rw [hfresh] at hsent
    obtain ⟨rfl, -⟩ := List.append_eq_nil_iff.mp hsent.symm
    exact absurd hheader.status (by decide)

/-- A file of three bytes. -/
def threeBytes : Files := fun path => if path = text "webfiles/a.txt" then some (text "abc") else none

def getThreeBytes : List Byte := text "GET /a.txt HTTP/1.1\r\n\r\n"

/-- The header announces two of the three bytes. -/
theorem serve_threeBytes :
    (∃ s', serve threeBytes getThreeBytes (.fresh fun _ => 5) = some s' ∧
      s'.sent = text "HTTP/1.1 200 OK\r\nContent-Length: 2\r\nContent-Type: text/plain\r\nConnection: Keep-Alive\r\n\r\nabc") ∧
    ¬Answered threeBytes getThreeBytes (.fresh fun _ => 5) (text "abc") := by
  have hrun : (serve threeBytes getThreeBytes (.fresh fun _ => 5)).map Sink.sent =
      some (okHeader 2 (text "text/plain") ++ text "abc") := by decide +kernel
  obtain ⟨s', hserve, hsent⟩ := Option.map_eq_some_iff.mp hrun
  refine ⟨⟨s', hserve, hsent.trans (by decide +kernel)⟩, ?_⟩
  rintro ⟨s'', hserve', header, hsent', hheader⟩
  obtain rfl := Option.some.inj (hserve.symm.trans hserve')
  obtain rfl := List.append_cancel_right (hsent'.symm.trans hsent)
  exact absurd hheader.length (by decide +kernel)

theorem not_answered_threeBytes :
    ¬Answered threeBytes getThreeBytes (.fresh fun _ => 1) (text "abc") :=
  not_answered (t := ⟨padded fileNameSize (text "a.txt"), 10, text "webfiles/a.txt"⟩)
    (by decide +kernel) (by decide) (fun _ => Int.one_pos) rfl

end NetworkStack.Web
