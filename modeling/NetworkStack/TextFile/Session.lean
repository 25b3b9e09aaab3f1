import NetworkStack.Lib.CString
import NetworkStack.Lib.Decimal
import NetworkStack.Lib.Transition

/-!
# Text files in blocks

The client sends the name of a file in a block of 4096 bytes. The server answers with the size
of the file in ten bytes and with the file in blocks of 4096 bytes; a size of zero says that
there is no such file. `fread` waits until all the bytes it asks for have come, so
a client that expects a block which the server does not send waits for ever, and so does
the server, for the next request.

What the client prints is `none` where it prints a string beyond the end of its buffer. A request
for which the server does so leaves the session undefined.
-/

namespace NetworkStack.TextFile

open CString Decimal Transition

/-- The size of the buffers on both sides. -/
def blockSize : Nat := 4096

/-- A name that can be requested: the client reads it, with its newline, into the buffer. -/
structure Name where
  chars : List Byte
  noZero : 0 ∉ chars
  noNewline : ascii '\n' ∉ chars
  fits : chars.length + 1 < blockSize

structure File where
  text : List Byte
  noZero : 0 ∉ text
  small : text.length < 10 ^ 9

/-- One request, with what it finds: the files at that time, and what the memory that the
server does not write holds, namely the last byte of `f_name` and the array `sizes`. -/
structure Round where
  name : Name
  files : List Byte → Option File
  last : Byte
  sizes : { array : List Byte // array.length = 10 }

/-! ## The server -/

/-- The block that the client sends for a name. -/
def request (name : Name) : List Byte := padded blockSize (name.chars ++ [ascii '\n'])

/-- The name in `f_name`. It is allocated with the length of the line, and the newline is not
copied; nothing is written in its place. -/
def fName (buf : List Byte) (last : Byte) : Option (List Byte) := do
  let line ← cString buf
  if line = [] then none else cString (line.dropLast ++ [last])

/-- The loop that sends a file, with the characters so far in `buf`, and the block behind it. At the
end of the file `EOF` is stored before the loop is left. -/
def sendBlocks (buf : List Byte) (i : Nat) (file : List Byte) : List Byte :=
  let full := i = blockSize
  let out := if full then buf else []
  let buf := if full then List.replicate blockSize 0 else buf
  let i := if full then 0 else i
  match file with
  | [] =>
      let buf := buf.set i 0xff
      out ++ if i ≠ 0 then buf.set i 0 else []
  | c :: rest => out ++ sendBlocks (buf.set i c) (i + 1) rest

/-- What the server writes for a request. -/
def answer (buf : List Byte) (r : Round) : Option (List Byte) := do
  let name ← fName buf r.last
  -- `sizeof(buf)` is the size of a pointer.
  let buf := overwrite buf 0 (List.replicate 8 0)
  match r.files name with
  | none =>
      return overwrite r.sizes 0 (decimalInt 0 ++ [0]) ++
        overwrite buf 0 (text "Wrong file name!\n " ++ [0])
  | some file =>
      return overwrite r.sizes 0 (decimalInt file.text.length ++ [0]) ++ sendBlocks buf 0 file.text

/-! ## The client -/

/-- `fread`, as soon as there are enough bytes. -/
def fread (count : Nat) (stream : List Byte) : Option (List Byte × List Byte) :=
  if count ≤ stream.length then some (stream.take count, stream.drop count) else none

/-- The loop over the full blocks. -/
def readBlocks : Nat → List Byte → Option (List Byte) → Option (List Byte × Option (List Byte))
  | 0, stream, out => some (stream, out)
  | quotient + 1, stream, out => do
      let (buffer, stream) ← fread blockSize stream
      readBlocks quotient stream (out.bind fun shown => (cString buffer).map (shown ++ ·))

def banner : List Byte := text "The text from above file is:"

def newline : List Byte := text "\n"

/-- The branch for a file: the full blocks, and one more if the size is no multiple. -/
def readFile (quotient remainder : Int) (stream : List Byte) :
    Option (List Byte × Option (List Byte)) := do
  let (stream, out) ← readBlocks quotient.toNat stream (some banner)
  if remainder ≠ 0 then
    let (buffer, stream) ← fread blockSize stream
    return (stream, out.bind fun shown => (cString buffer).map (shown ++ · ++ newline))
  else return (stream, out.map (· ++ newline))

/-- What the client reads for a request, if it does not wait for ever: the bytes that are left, and
what it prints. -/
def receive (stream : List Byte) : Option (List Byte × Option (List Byte)) := do
  let (field, stream) ← fread 10 stream
  let size := atoi (padded blockSize field)
  if size = 0 then
    let (buffer, stream) ← fread blockSize stream
    return (stream, (cString buffer).map (· ++ newline))
  else readFile (size.tdiv blockSize) (size.tmod blockSize) stream

/-! ## A session -/

inductive Status where
  | running
  | serverWaits
  | clientWaits
  | undefined
  deriving DecidableEq, Repr

/-- Both ends between two requests, and the record of what the client has printed and should have
printed. -/
structure Session where
  toServer : List Byte
  toClient : List Byte
  status : Status
  printed : List (Option (List Byte))
  wanted : List (List Byte)
  deriving DecidableEq, Repr

/-- What the user should see. -/
def Round.wanted (r : Round) : List Byte :=
  match r.files r.name.chars with
  | none => text "Wrong file name!\n " ++ newline
  | some file => banner ++ file.text ++ newline

/-- The server finds the name terminated, and the file, if there is one, is not empty. -/
structure Round.Answered (r : Round) : Prop where
  last : r.last = 0
  nonempty : ∀ file ∈ r.files r.name.chars, file.text ≠ []

/-- Besides, the file leaves room for the zero byte behind it. -/
structure Round.Shown (r : Round) : Prop extends Round.Answered r where
  short : ∀ file ∈ r.files r.name.chars, file.text.length < blockSize

namespace Session

def start : Session where
  toServer := []
  toClient := []
  status := .running
  printed := []
  wanted := []

/-- One request and its answer. -/
def round (s : Session) (r : Round) : Session :=
  if s.status ≠ .running then s
  else
    let s := { s with wanted := s.wanted ++ [r.wanted] }
    match fread blockSize (s.toServer ++ request r.name) with
    | none => { s with toServer := s.toServer ++ request r.name, status := .serverWaits }
    | some (buf, toServer) =>
        let s := { s with toServer := toServer }
        match answer buf r with
        | none => { s with status := .undefined }
        | some bytes =>
            match receive (s.toClient ++ bytes) with
            | none => { s with toClient := s.toClient ++ bytes, status := .clientWaits }
            | some (toClient, out) => { s with toClient := toClient, printed := s.printed ++ [out] }

def step (s : Session) (r : Round) : Option Session := some (s.round r)

/-- Nobody waits, and every byte that was sent has been read. -/
structure Aligned (s : Session) : Prop where
  status : s.status = .running
  toServer : s.toServer = []
  toClient : s.toClient = []

/-- The session is aligned, and the user has seen every file as it is. -/
structure Faithful (s : Session) : Prop extends Aligned s where
  printed : s.printed = s.wanted.map some

end Session

/-! ## The request -/

theorem length_request (name : Name) : (request name).length = blockSize := by
  have hfits := name.fits
  apply length_padded
  rw [List.length_append, List.length_singleton]
  exact hfits.le

theorem cString_request (name : Name) : cString (request name) = some (name.chars ++ [ascii '\n']) := by
  apply cString_padded
  · rw [List.length_append, List.length_singleton]
    exact name.fits
  · rw [List.mem_append, not_or]
    exact ⟨name.noZero, by decide⟩

/-- The server finds the name if the byte behind it happens to be zero. -/
theorem fName_request (name : Name) (last : Byte) :
    fName (request name) last = if last = 0 then some name.chars else none := by
  have hline : name.chars ++ [ascii '\n'] ≠ [] := by simp
  rw [fName, cString_request]
  simp only [Option.bind_eq_bind, Option.bind_some, if_neg hline, List.dropLast_concat]
  split
  · rename_i hlast
    rw [hlast]
    exact cString_append_zero name.noZero
  · rename_i hlast
    apply cString_eq_none
    rw [List.mem_append, not_or, List.mem_singleton]
    exact ⟨name.noZero, fun h => hlast h.symm⟩

/-! ## The size field -/

theorem length_sizes (r : Round) {n : Nat} (h : n < 10 ^ 9) :
    (overwrite r.sizes 0 (decimalInt n ++ [0])).length = 10 := by
  have hlen : (decimal n).length ≤ 9 := (length_decimal_le_iff (by decide)).mpr h
  have hdecimal : decimalInt n = decimal n := if_neg (by omega)
  rw [length_overwrite, r.sizes.2]
  rw [r.sizes.2, hdecimal, List.length_append, List.length_singleton]
  omega

/-- The client reads the size that the server printed. -/
theorem atoi_sizes (r : Round) (n : Nat) :
    atoi (padded blockSize (overwrite r.sizes 0 (decimalInt n ++ [0]))) = n := by
  rw [padded, overwrite_zero, List.append_assoc, List.append_assoc, atoi, scanInt_decimalInt]
  · rfl
  · rintro b ⟨⟩
    rfl

/-! ## The blocks -/

variable {buf file more : List Byte} {i : Nat}

/-- As long as there is room, the characters are stored one behind the other. -/
theorem sendBlocks_append (xs rest : List Byte) (hbuf : buf.length = blockSize)
    (h : i + xs.length ≤ blockSize) :
    sendBlocks buf i (xs ++ rest) = sendBlocks (overwrite buf i xs) (i + xs.length) rest := by
  induction xs generalizing buf i with
  | nil =>
      have hsame : overwrite buf i [] = buf := by
        rw [overwrite, List.append_nil, List.length_nil, Nat.add_zero, List.take_append_drop]
      rw [hsame, List.nil_append, List.length_nil, Nat.add_zero]
  | cons x xs ih =>
      rw [List.length_cons] at h
      have hi : ¬i = blockSize := by omega
      rw [List.cons_append, sendBlocks]
      simp only [if_neg hi, List.nil_append]
      rw [ih (by rw [List.length_set, hbuf]) (by omega), overwrite_set (by omega), List.length_cons]
      congr 1
      omega

/-- A file that leaves room in the block is followed by a zero byte. -/
theorem sendBlocks_short (hbuf : buf.length = blockSize) (hpos : file ≠ [])
    (h : file.length < blockSize) :
    sendBlocks buf 0 file = file ++ 0 :: buf.drop (file.length + 1) := by
  have hlen : file.length ≠ 0 := fun h0 => hpos (List.eq_nil_of_length_eq_zero h0)
  have hset : (overwrite buf 0 file).set file.length 0 = file ++ 0 :: buf.drop (file.length + 1) := by
    rw [overwrite_zero, List.set_append_right _ _ (Nat.le_refl _), Nat.sub_self,
      List.drop_eq_getElem_cons (by omega), List.set_cons_zero]
  calc sendBlocks buf 0 file
      = sendBlocks (overwrite buf 0 file) file.length [] := by
        have happend := sendBlocks_append file [] hbuf (by omega : 0 + file.length ≤ blockSize)
        rwa [List.append_nil, Nat.zero_add] at happend
    _ = (overwrite buf 0 file).set file.length 0 := by
        rw [sendBlocks]
        simp only [if_neg h.ne, List.nil_append]
        rw [if_pos hlen, List.set_set]
    _ = file ++ 0 :: buf.drop (file.length + 1) := hset

/-- A full block is sent before the file is read on. -/
theorem sendBlocks_full (hbuf : buf.length = blockSize) (h : blockSize ≤ file.length) :
    sendBlocks buf 0 file = file.take blockSize ++
      sendBlocks (List.replicate blockSize 0) 0 (file.drop blockSize) := by
  have hlen : (file.take blockSize).length = blockSize := List.length_take_of_le h
  have hover : overwrite buf 0 (file.take blockSize) = file.take blockSize := by
    rw [overwrite_zero, hlen, List.drop_of_length_le hbuf.le, List.append_nil]
  have hflush : ∀ rest, sendBlocks (file.take blockSize) blockSize rest =
      file.take blockSize ++ sendBlocks (List.replicate blockSize 0) 0 rest := by
    intro rest
    have hzero : ¬0 = blockSize := by decide
    cases rest with
    | nil => simp [sendBlocks, hzero]
    | cons c rest => simp [sendBlocks, hzero]
  calc sendBlocks buf 0 file
      = sendBlocks buf 0 (file.take blockSize ++ file.drop blockSize) := by
        rw [List.take_append_drop]
    _ = sendBlocks (file.take blockSize) blockSize (file.drop blockSize) := by
        rw [sendBlocks_append _ _ hbuf (by omega), hover, hlen, Nat.zero_add]
    _ = file.take blockSize ++ sendBlocks (List.replicate blockSize 0) 0 (file.drop blockSize) :=
        hflush _

/-! ## What the client reads -/

theorem fread_append {n : Nat} {bytes : List Byte} (h : bytes.length = n) (more : List Byte) :
    fread n (bytes ++ more) = some (bytes, more) := by
  rw [fread, if_pos (by rw [List.length_append]; omega), ← h, List.take_left, List.drop_left]

/-- The full blocks are read off the stream. None of them ends in a zero byte, so after one of them it
is not known what the client prints. -/
theorem readBlocks_sendBlocks (hfile : 0 ∉ file) (hbuf : buf.length = blockSize)
    (out : Option (List Byte)) {quotient : Nat} (hq : file.length / blockSize = quotient) :
    ∃ buf' : List Byte, buf'.length = blockSize ∧
      readBlocks quotient (sendBlocks buf 0 file ++ more) out =
        some (sendBlocks buf' 0 (file.drop (quotient * blockSize)) ++ more,
          if quotient = 0 then out else none) := by
  induction quotient generalizing file buf out with
  | zero =>
      refine ⟨buf, hbuf, ?_⟩
      rw [readBlocks, Nat.zero_mul, List.drop_zero, if_pos rfl]
  | succ quotient ih =>
      have hpos : 0 < blockSize := by decide
      have hle : blockSize ≤ file.length := by
        by_contra hlt
        rw [Nat.div_eq_of_lt (Nat.lt_of_not_le hlt)] at hq
        omega
      have hq' : (file.drop blockSize).length / blockSize = quotient := by
        rw [List.length_drop]
        have hdiv := Nat.div_eq_sub_div hpos hle
        omega
      have hzeros : (List.replicate blockSize (0 : Byte)).length = blockSize := List.length_replicate
      obtain ⟨buf', hbuf', hread⟩ := ih (fun h0 => hfile (List.mem_of_mem_drop h0)) hzeros none hq'
      refine ⟨buf', hbuf', ?_⟩
      have hnone : cString (file.take blockSize) = none :=
        cString_eq_none fun h0 => hfile (List.mem_of_mem_take h0)
      have hout : (out.bind fun shown => (cString (file.take blockSize)).map (shown ++ ·)) = none := by
        rw [hnone]
        cases out <;> rfl
      rw [sendBlocks_full hbuf hle, List.append_assoc, readBlocks,
        fread_append (List.length_take_of_le hle)]
      simp only [Option.bind_eq_bind, Option.bind_some, hout, hread, List.drop_drop,
        ite_self, Nat.succ_ne_zero, if_false]
      rw [Nat.succ_mul, Nat.add_comm]

variable {r : Round}

/-- There is no such file. -/
theorem receive_wrong (hbuf : buf.length = blockSize) :
    receive (overwrite r.sizes 0 (decimalInt (0 : Nat) ++ [0]) ++
        overwrite buf 0 (text "Wrong file name!\n " ++ [0])) =
      some ([], some (text "Wrong file name!\n " ++ newline)) := by
  have hlen : (overwrite buf 0 (text "Wrong file name!\n " ++ [0])).length = blockSize := by
    rw [length_overwrite, hbuf]
    rw [hbuf]
    decide
  have hread := fread_append hlen []
  rw [List.append_nil] at hread
  have hshown : cString (overwrite buf 0 (text "Wrong file name!\n " ++ [0])) =
      some (text "Wrong file name!\n ") := by
    rw [overwrite_zero, List.append_assoc]
    exact cString_append_zero (by decide)
  rw [receive, fread_append (length_sizes r (by decide))]
  simp only [Option.bind_eq_bind, Option.bind_some, atoi_sizes, hread, hshown]
  rfl

/-- For an empty file the client waits for a block that does not come. -/
theorem receive_empty (buf : List Byte) :
    receive (overwrite r.sizes 0 (decimalInt (0 : Nat) ++ [0]) ++ sendBlocks buf 0 []) = none := by
  have hnothing : sendBlocks buf 0 [] = [] := rfl
  rw [hnothing, receive, fread_append (length_sizes r (by decide))]
  simp only [Option.bind_eq_bind, Option.bind_some, atoi_sizes]
  rfl

/-- The last block of a file that is no multiple of a block, and what is printed of it. -/
theorem fread_remainder (hbuf : buf.length = blockSize) (hfile : 0 ∉ file) (hpos : file ≠ [])
    (h : file.length < blockSize) :
    ∃ block, fread blockSize (sendBlocks buf 0 file) = some (block, []) ∧ cString block = some file := by
  refine ⟨sendBlocks buf 0 file, ?_, ?_⟩
  · have hlen : (sendBlocks buf 0 file).length = blockSize := by
      rw [sendBlocks_short hbuf hpos h, List.length_append, List.length_cons, List.length_drop]
      omega
    have hread := fread_append hlen []
    rwa [List.append_nil] at hread
  · rw [sendBlocks_short hbuf hpos h]
    exact cString_append_zero hfile

theorem readFile_sendBlocks (hfile : 0 ∉ file) (hpos : file ≠ []) (hbuf : buf.length = blockSize) :
    readFile (file.length / blockSize : Nat) (file.length % blockSize : Nat) (sendBlocks buf 0 file) =
      some ([], if file.length < blockSize then some (banner ++ file ++ newline) else none) := by
  have hblock : 0 < blockSize := by decide
  have hlen : file.length ≠ 0 := fun h0 => hpos (List.eq_nil_of_length_eq_zero h0)
  have hsplit := Nat.div_add_mod' file.length blockSize
  have hsmall : file.length < blockSize ↔ file.length / blockSize = 0 :=
    (Nat.div_eq_zero_iff_lt hblock).symm
  obtain ⟨buf', hbuf', hread⟩ :
      ∃ buf' : List Byte, buf'.length = blockSize ∧
        readBlocks (file.length / blockSize) (sendBlocks buf 0 file ++ []) (some banner) =
          some (sendBlocks buf' 0 (file.drop (file.length / blockSize * blockSize)) ++ [],
            if file.length / blockSize = 0 then some banner else none) :=
    readBlocks_sendBlocks hfile hbuf (some banner) rfl
  rw [List.append_nil, List.append_nil] at hread
  rw [readFile, Int.toNat_natCast, hread]
  simp only [Option.bind_eq_bind, Option.bind_some]
  by_cases hrem : file.length % blockSize = 0
  · -- Nothing is left, and there was a full block.
    have hdrop : file.drop (file.length / blockSize * blockSize) = [] :=
      List.drop_of_length_le (by omega)
    have hquot : file.length / blockSize ≠ 0 := fun h0 => by
      rw [h0] at hsplit
      omega
    rw [hdrop, if_neg (fun h => h (Int.natCast_eq_zero.mpr hrem)), if_neg hquot,
      if_neg (fun h => hquot (hsmall.mp h))]
    rfl
  · have hdrop : (file.drop (file.length / blockSize * blockSize)).length =
        file.length % blockSize := by
      rw [List.length_drop]
      omega
    obtain ⟨block, hfread, hshown⟩ := fread_remainder hbuf'
      (fun h0 => hfile (List.mem_of_mem_drop h0))
      (fun h0 => hrem (by rw [← hdrop, h0]; rfl))
      (by rw [hdrop]; exact Nat.mod_lt _ hblock)
    rw [if_pos (Int.natCast_ne_zero.mpr hrem), hfread]
    simp only [Option.bind_some, hshown, hsmall]
    by_cases hquot : file.length / blockSize = 0
    · rw [if_pos hquot, if_pos hquot, hquot, Nat.zero_mul, List.drop_zero]
      rfl
    · rw [if_neg hquot, if_neg hquot]
      rfl

/-- Any other file is read to its end, and printed if it is shorter than a block. -/
theorem receive_sendBlocks (file : File) (hpos : file.text ≠ []) (hbuf : buf.length = blockSize) :
    receive (overwrite r.sizes 0 (decimalInt file.text.length ++ [0]) ++ sendBlocks buf 0 file.text) =
      some ([], if file.text.length < blockSize then some (banner ++ file.text ++ newline)
        else none) := by
  have hsize : ((file.text.length : Nat) : Int) ≠ 0 := by
    rw [Int.natCast_ne_zero]
    exact fun h0 => hpos (List.eq_nil_of_length_eq_zero h0)
  rw [receive, fread_append (length_sizes r file.small)]
  simp only [Option.bind_eq_bind, Option.bind_some, atoi_sizes, if_neg hsize]
  exact readFile_sendBlocks file.noZero hpos hbuf

/-! ## Rounds -/

/-- What the server writes, where the memory behind the name is as it should be. -/
theorem answer_request (h : r.last = 0) :
    ∃ buf : List Byte, buf.length = blockSize ∧ answer (request r.name) r = some
      (match r.files r.name.chars with
      | none => overwrite r.sizes 0 (decimalInt (0 : Nat) ++ [0]) ++
          overwrite buf 0 (text "Wrong file name!\n " ++ [0])
      | some file => overwrite r.sizes 0 (decimalInt file.text.length ++ [0]) ++
          sendBlocks buf 0 file.text) := by
  refine ⟨overwrite (request r.name) 0 (List.replicate 8 0), ?_, ?_⟩
  · rw [length_overwrite, length_request]
    rw [length_request]
    decide
  · rw [answer, fName_request, if_pos h]
    simp only [Option.bind_eq_bind, Option.bind_some]
    cases r.files r.name.chars <;> rfl

namespace Session

variable {s : Session}

/-- A request that the server can read is taken off the stream. -/
theorem Aligned.round_eq (h : s.Aligned) (r : Round) :
    s.round r =
      match answer (request r.name) r with
      | none => { s with wanted := s.wanted ++ [r.wanted], status := .undefined }
      | some bytes =>
          match receive bytes with
          | none => { s with
              wanted := s.wanted ++ [r.wanted], toClient := bytes, status := .clientWaits }
          | some (toClient, out) => { s with
              wanted := s.wanted ++ [r.wanted], toClient := toClient, printed := s.printed ++ [out] } := by
  have hread := fread_append (length_request r.name) []
  rw [List.append_nil] at hread
  obtain ⟨toServer, toClient, status, printed, wanted⟩ := s
  obtain ⟨rfl, rfl, rfl⟩ := h
  simp only [round, ne_eq, not_true_eq_false, if_false, List.nil_append, hread]

/-- A file that is not empty, or that does not exist, keeps the streams aligned; it is
printed if it is shorter than a block. -/
theorem Aligned.round_answered (h : s.Aligned) (hr : r.Answered) :
    ∃ out, s.round r =
        { s with wanted := s.wanted ++ [r.wanted], toClient := [], printed := s.printed ++ [out] } ∧
      (out = some r.wanted ↔ ∀ file ∈ r.files r.name.chars, file.text.length < blockSize) := by
  obtain ⟨hlast, hfile⟩ := hr
  obtain ⟨buf, hbuf, hanswer⟩ := answer_request hlast
  rw [h.round_eq, hanswer]
  cases hfiles : r.files r.name.chars with
  | none =>
      refine ⟨some r.wanted, ?_, by simp⟩
      simp only [receive_wrong hbuf, Round.wanted, hfiles]
  | some file =>
      simp only [receive_sendBlocks file (hfile file hfiles) hbuf]
      refine ⟨_, rfl, ?_⟩
      by_cases hshort : file.text.length < blockSize
      · simp [hshort, Round.wanted, hfiles]
      · simp [hshort]

/-- Any other round ends with a client that waits, or with nothing known. -/
theorem Aligned.not_aligned_round (h : s.Aligned) (hr : ¬r.Answered) : ¬(s.round r).Aligned := by
  intro hround
  have hstatus := hround.status
  rw [h.round_eq] at hstatus
  by_cases hlast : r.last = 0
  · obtain ⟨file, hfile, hempty⟩ : ∃ file ∈ r.files r.name.chars, file.text = [] := by
      by_contra hnone
      exact hr ⟨hlast, fun file hfile h0 => hnone ⟨file, hfile, h0⟩⟩
    obtain ⟨buf, -, hanswer⟩ := answer_request hlast
    rw [hanswer, Option.mem_def.mp hfile] at hstatus
    simp only [hempty, List.length_nil, receive_empty] at hstatus
    cases hstatus
  · rw [answer, fName_request, if_neg hlast] at hstatus
    cases hstatus

theorem Aligned.round_iff (h : s.Aligned) : (s.round r).Aligned ↔ r.Answered := by
  constructor
  · intro hround
    by_contra hr
    exact h.not_aligned_round hr hround
  · intro hr
    obtain ⟨out, heq, -⟩ := h.round_answered hr
    rw [heq]
    exact ⟨h.status, h.toServer, rfl⟩

theorem Faithful.round_iff (h : s.Faithful) : (s.round r).Faithful ↔ r.Shown := by
  constructor
  · intro hround
    have hr : r.Answered := h.toAligned.round_iff.mp hround.toAligned
    obtain ⟨out, heq, hout⟩ := h.toAligned.round_answered hr
    refine ⟨hr, hout.mp ?_⟩
    have hprinted := hround.printed
    rw [heq, h.printed, List.map_append] at hprinted
    simpa using hprinted
  · rintro ⟨hr, hshort⟩
    obtain ⟨out, heq, hout⟩ := h.toAligned.round_answered hr
    rw [heq]
    refine ⟨⟨h.status, h.toServer, rfl⟩, ?_⟩
    simp only [h.printed, hout.mpr hshort, List.map_append, List.map_cons, List.map_nil]

theorem exists_step (s : Session) (r : Round) : ∃ t, step s r = some t := ⟨_, rfl⟩

theorem aligned_start : start.Aligned := ⟨rfl, rfl, rfl⟩

/-- Over a whole session the streams stay aligned exactly if no round asks for an empty file or finds
the name unterminated. -/
theorem aligned_iff_answered (rounds : List Round) :
    Always step Aligned start rounds ↔ ∀ r ∈ rounds, r.Answered := by
  obtain ⟨t, ht⟩ := exists_exec exists_step start rounds
  rw [← guarded_iff_forall exists_step start rounds]
  apply always_iff_guarded (fun _ _ _ _ _ => trivial) _ (I := fun _ => True) trivial aligned_start ht
  intro s r t _ hs hstep
  obtain rfl := Option.some.inj hstep
  exact hs.round_iff

/-- And the client prints every file as it is exactly if, besides, no file fills a block. -/
theorem faithful_iff_shown (rounds : List Round) :
    Always step Faithful start rounds ↔ ∀ r ∈ rounds, r.Shown := by
  obtain ⟨t, ht⟩ := exists_exec exists_step start rounds
  rw [← guarded_iff_forall exists_step start rounds]
  apply always_iff_guarded (fun _ _ _ _ _ => trivial) _ (I := fun _ => True) trivial
    ⟨aligned_start, rfl⟩ ht
  intro s r t _ hs hstep
  obtain rfl := Option.some.inj hstep
  exact hs.round_iff

/-- A file that exists and is empty, in a server whose memory is as it should be. -/
def emptyFile : Round where
  name := ⟨text "empty.txt", by decide, by decide, by decide⟩
  files := fun name => if name = text "empty.txt" then some ⟨[], by decide, by decide⟩ else none
  last := 0
  sizes := ⟨List.replicate 10 0, rfl⟩

/-- The client waits for a block, and the server for the next request. -/
theorem not_faithful_emptyFile :
    (start.round emptyFile).status = .clientWaits ∧ ¬Always step Faithful start [emptyFile] := by
  have hstatus : (start.round emptyFile).status = .clientWaits := by
    obtain ⟨buf, -, hanswer⟩ := answer_request (rfl : emptyFile.last = 0)
    have hfile : emptyFile.files emptyFile.name.chars = some ⟨[], by decide, by decide⟩ := rfl
    rw [aligned_start.round_eq, hanswer, hfile]
    simp only [List.length_nil, receive_empty]
  refine ⟨hstatus, fun h => ?_⟩
  have hfaithful : (start.round emptyFile).Faithful := h.last rfl
  rw [hfaithful.status] at hstatus
  cases hstatus

end Session

end NetworkStack.TextFile
