import NetworkStack.FileService.Nvt
import NetworkStack.Lib.Transition

/-!
# The file service over a stream

For each name that the client sends, the server answers with a line, and with the file if there
is one. The line has the name in front of the length, and commas in a name are not marked, so the
client looks for the length from the right. Then it reads as many bytes as the
line says, in whatever pieces they come.

A client that is given a file name on the command line makes one round; one that asks its user makes a
round for each name.
-/

namespace NetworkStack.FileService

open Decimal Transfer Transition

/-- A name that can be requested. -/
structure Name where
  chars : List Byte
  nonempty : chars ≠ []
  noZero : 0 ∉ chars
  crlfFree : CrlfFree chars
  short : chars.length ≤ 255

/-- The contents of a regular file. -/
structure Contents where
  bytes : List Byte
  small : bytes.length < 2 ^ 31

/-- What `access` and `open` say about a name. -/
inductive Found where
  | denied
  | unopened
  | file (contents : Contents)

/-- One request, with the files as they are then. -/
structure Round where
  name : Name
  files : List Byte → Found

/-- The file, if the server reports one. -/
def Found.reported : Found → Option (List Byte)
  | .denied | .unopened => none
  | .file contents => some contents.bytes

/-! ## The server -/

/-- The loop of `process_line`, which reads into an array of 5000 bytes. -/
def copyFile : Nat → List Byte → List Byte
  | 0, _ => []
  | fuel + 1, fd =>
      let resp := fd.take 5000
      if resp = [] then [] else resp ++ copyFile fuel (fd.drop 5000)

/-- The line in front: the name, a number and a message. -/
def response (line number message : List Byte) : List Byte :=
  line ++ ascii ',' :: (number ++ ascii ',' :: message) ++ crlf

/-- `process_line`: what it writes. -/
def processLine (line : List Byte) (found : Found) : List Byte :=
  let denied := response line (text "-1") (text "File does not exist or access denied")
  if line = [] then denied
  else
    match found with
    | .denied => denied
    | .unopened => response line (text "-1") (text "File could not be opened")
    | .file contents =>
        response line (decimalInt contents.bytes.length) (text "Ok") ++
          copyFile (contents.bytes.length + 1) contents.bytes

/-- One iteration of `do_connection`: the file that is reported, and what is written. An empty
line ends the connection. -/
def doConnection (files : List Byte → Found) (sd : Pipe Byte) :
    Except Stuck (Option (List Byte) × List Byte × Pipe Byte) := do
  let (line, sd) ← getNvtLine 256 sd
  if line = [] then .error .fails
  else return ((files line).reported, processLine line (files line), sd)

/-! ## The client -/

/-- `strrchr` for a comma: what is in front of the last one, and what is behind it. -/
def strrchr (line : List Byte) : Option (List Byte × List Byte) :=
  match line.reverse.dropWhile (· ≠ ascii ',') with
  | [] => none
  | _ :: front => some (front.reverse, (line.reverse.takeWhile (· ≠ ascii ',')).reverse)

/-- The loop that reads `length` bytes, into an array of 1000 bytes. What is read is written
to the file at once. -/
def retrieve : Nat → Nat → Pipe Byte → Except Stuck (List Byte × Pipe Byte)
  | _, 0, sd => .ok ([], sd)
  | 0, _ + 1, _ => .error .waits
  | fuel + 1, length + 1, sd =>
      match sd.read (min (length + 1) 1000) with
      | none => .error .waits
      | some ([], _) => .error .fails
      | some (got, sd) => do
          let (rest, sd) ← retrieve fuel (length + 1 - got.length) sd
          return (got ++ rest, sd)

/-- The length in a response, found from the right. It is `none` for a line without two
commas, and for one without a number, where the variable keeps what it held. -/
def responseLength (line : List Byte) : Option Int := do
  let (line, _) ← strrchr line
  let (_, lenstr) ← strrchr line
  scanInt lenstr

/-- The contents of the file that the client writes for a length, or `none` for the one
that reports an error. Other negative numbers, and those that are no `int`, are not lengths. -/
def fetch (length : Int) (sd : Pipe Byte) : Except Stuck (Option (List Byte) × Pipe Byte) :=
  if length = -1 then .ok (none, sd)
  else if 0 ≤ length ∧ length < 2 ^ 31 then do
    let (bytes, sd) ← retrieve length.toNat length.toNat sd
    return (some bytes, sd)
  else .error .fails

/-- What `loop_until_end` does with the answer to a request. -/
def receive (sd : Pipe Byte) : Except Stuck (Option (List Byte) × Pipe Byte) := do
  let (line, sd) ← getNvtLine 1000 sd
  match responseLength line with
  | none => .error .fails
  | some length => fetch length sd

/-! ## A session -/

/-- Both streams, the file `rcvd`, and for each round what the server has reported and what the client
has written. -/
structure Session where
  toServer : Pipe Byte
  toClient : Pipe Byte
  rcvd : Option (List Byte)
  reported : List (Option (List Byte))
  written : List (Option (List Byte))

namespace Session

/-- A connection on which nothing was sent yet. -/
def start (toServer toClient : Nat → Nat) (rcvd : Option (List Byte)) : Session where
  toServer := .fresh toServer
  toClient := .fresh toClient
  rcvd := rcvd
  reported := []
  written := []

/-- One request and its answer. -/
def round (s : Session) (r : Round) : Except Stuck Session := do
  let (file, bytes, toServer) ← doConnection r.files (s.toServer.write (r.name.chars ++ crlf))
  let (out, toClient) ← receive (s.toClient.write bytes)
  return {
    toServer := toServer
    toClient := toClient
    rcvd := out <|> s.rcvd
    reported := s.reported ++ [file]
    written := s.written ++ [out] }

def step (s : Session) (r : Round) : Option Session := (s.round r).toOption

/-- Each side has read all that the other has written, the client has written the files that were
reported and nothing else, and the last of them is in `rcvd`. -/
structure InStep (s : Session) : Prop where
  toServer : s.toServer.pending = []
  toClient : s.toClient.pending = []
  written : s.written = s.reported
  rcvd : ∀ bytes, s.reported.getLast? = some (some bytes) → s.rcvd = some bytes

end Session

/-! ## Lines from the right -/

/-- The last comma is found if none is behind it. -/
theorem strrchr_eq {front back : List Byte} (h : ascii ',' ∉ back) :
    strrchr (front ++ ascii ',' :: back) = some (front, back) := by
  have hback : ∀ b ∈ back.reverse, decide (b ≠ ascii ',') = true := by
    intro b hb
    rw [decide_eq_true_iff]
    rintro rfl
    exact h (List.mem_reverse.mp hb)
  have hrev : (front ++ ascii ',' :: back).reverse = back.reverse ++ ascii ',' :: front.reverse := by
    simp
  rw [strrchr, hrev, List.dropWhile_append_of_pos hback, List.takeWhile_append_of_pos hback]
  simp

/-- Neither a comma, nor the end of a line or of a string. -/
def Plain (l : List Byte) : Prop := ∀ b ∈ l, b ≠ ascii ',' ∧ b ≠ lf ∧ b ≠ 0

instance (l : List Byte) : Decidable (Plain l) := inferInstanceAs (Decidable (∀ b ∈ l, _))

theorem plain_decimal (n : Nat) : Plain (decimal n) := by
  have hplain : ∀ b : Byte, isDigit b = true → b ≠ ascii ',' ∧ b ≠ lf ∧ b ≠ 0 := by decide
  exact fun b hb => hplain b (isDigit_of_mem_decimal hb)

theorem crlfFree_append {front back : List Byte} (hfront : CrlfFree front) (hback : lf ∉ back) :
    CrlfFree (front ++ back) := by
  have hno : ∀ a b, b ∈ back → ¬(a = cr ∧ b = lf) := by
    rintro a b hb ⟨-, rfl⟩
    exact hback hb
  refine List.isChain_append.mpr ⟨hfront, ?_, ?_⟩
  · exact (List.pairwise_of_forall_mem_list fun a _ b hb => hno a b hb).isChain
  · intro a _ b hb
    exact hno a b (List.mem_of_mem_head? hb)

section Response

variable {name number message : List Byte}

theorem responseLength_eq (hnumber : Plain number) (hmessage : Plain message) {length : Int}
    (hscan : scanInt number = some length) :
    responseLength (name ++ ascii ',' :: (number ++ ascii ',' :: message)) = some length := by
  have hright : strrchr (name ++ ascii ',' :: (number ++ ascii ',' :: message)) =
      some (name ++ ascii ',' :: number, message) := by
    have hcomma : ascii ',' ∉ message := fun h => (hmessage _ h).1 rfl
    rw [← List.cons_append, ← List.append_assoc]
    exact strrchr_eq hcomma
  have hleft : strrchr (name ++ ascii ',' :: number) = some (name, number) :=
    strrchr_eq fun h => (hnumber _ h).1 rfl
  rw [responseLength, hright]
  simp only [Option.bind_eq_bind, Option.bind_some, hleft, hscan]

/-- The line that the server writes is a line, and has no zero byte. -/
theorem response_line (hcrlf : CrlfFree name) (hzero : 0 ∉ name) (hnumber : Plain number)
    (hmessage : Plain message) :
    CrlfFree (name ++ ascii ',' :: (number ++ ascii ',' :: message)) ∧
      0 ∉ name ++ ascii ',' :: (number ++ ascii ',' :: message) := by
  have hcomma : ascii ',' ≠ lf ∧ ascii ',' ≠ 0 := by decide
  have hplain : ∀ b ∈ ascii ',' :: (number ++ ascii ',' :: message), b ≠ lf ∧ b ≠ 0 := by
    intro b hb
    rw [List.mem_cons, List.mem_append, List.mem_cons] at hb
    obtain rfl | hb | rfl | hb := hb
    · exact hcomma
    · exact (hnumber b hb).2
    · exact hcomma
    · exact (hmessage b hb).2
  refine ⟨crlfFree_append hcrlf fun h => (hplain lf h).1 rfl, ?_⟩
  rw [List.mem_append, not_or]
  exact ⟨hzero, fun h => (hplain 0 h).2 rfl⟩

end Response

/-! ## The streams -/

theorem copyFile_eq {fuel : Nat} {fd : List Byte} (h : fd.length < fuel) : copyFile fuel fd = fd := by
  induction fuel generalizing fd with
  | zero => exact absurd h (Nat.not_lt_zero _)
  | succ fuel ih =>
      simp only [copyFile]
      cases fd with
      | nil => rfl
      | cons b fd =>
          have hlen : ((b :: fd).drop 5000).length < fuel := by
            rw [List.length_drop, List.length_cons]
            rw [List.length_cons] at h
            omega
          have hne : (b :: fd).take 5000 ≠ [] := by simp
          rw [if_neg hne, ih hlen, List.take_append_drop]

variable {sd : Pipe Byte} {more : List Byte}

/-- The client reads all the bytes of a file, in whatever pieces they come. -/
theorem retrieve_eq {bytes : List Byte} {fuel : Nat} (hfuel : bytes.length ≤ fuel)
    (h : sd.pending = bytes ++ more) :
    ∃ sd' : Pipe Byte, retrieve fuel bytes.length sd = .ok (bytes, sd') ∧ sd'.pending = more := by
  induction fuel generalizing bytes sd with
  | zero =>
      obtain rfl := List.eq_nil_of_length_eq_zero (Nat.le_zero.mp hfuel)
      exact ⟨sd, rfl, h⟩
  | succ fuel ih =>
      cases hbytes : bytes with
      | nil => exact ⟨sd, rfl, by rw [h, hbytes]; rfl⟩
      | cons b rest =>
          have hlength : bytes.length = rest.length + 1 := by rw [hbytes, List.length_cons]
          have hpending : sd.pending ≠ [] := by
            rw [h, hbytes]
            exact List.cons_ne_nil _ _
          have hcount : 0 < min (rest.length + 1) 1000 := by omega
          obtain ⟨got, sd₁, hread, hgot, hlen, hsplit⟩ := Pipe.read_eq hcount hpending
          have hle : got.length ≤ bytes.length := by omega
          have hfront : bytes.take got.length = got := by
            have htake := congrArg (List.take got.length) (h.symm.trans hsplit)
            rwa [List.take_left, List.take_append_of_le_length hle] at htake
          have hback : sd₁.pending = bytes.drop got.length ++ more := by
            have hdrop := congrArg (List.drop got.length) (hsplit.symm.trans h)
            rwa [List.drop_left, List.drop_append_of_le_length hle] at hdrop
          have hpos : 0 < got.length := List.length_pos_iff.mpr hgot
          have hfuel' : (bytes.drop got.length).length ≤ fuel := by
            rw [List.length_drop]
            omega
          obtain ⟨sd', hloop, hmore⟩ := ih hfuel' hback
          refine ⟨sd', ?_, hmore⟩
          rw [List.length_drop, hlength] at hloop
          rw [← hbytes, hlength, retrieve, hread]
          obtain ⟨c, tail, rfl⟩ := List.exists_cons_of_ne_nil hgot
          simp only [hloop]
          calc Except.ok (c :: tail ++ bytes.drop (c :: tail).length, sd')
              = Except.ok (bytes.take (c :: tail).length ++ bytes.drop (c :: tail).length, sd') := by
                rw [hfront]
            _ = Except.ok (bytes, sd') := by rw [List.take_append_drop]

theorem fetch_length {bytes : List Byte} (hsmall : bytes.length < 2 ^ 31)
    (h : sd.pending = bytes ++ more) :
    ∃ sd' : Pipe Byte, fetch bytes.length sd = .ok (some bytes, sd') ∧ sd'.pending = more := by
  obtain ⟨sd', hretrieve, hmore⟩ := retrieve_eq (Nat.le_refl bytes.length) h
  refine ⟨sd', ?_, hmore⟩
  rw [fetch, if_neg (by omega), if_pos (by omega), Int.toNat_natCast, hretrieve]
  rfl

/-- The client takes the length off the line and goes on behind it. -/
theorem receive_response (name : Name) {number message : List Byte} {length : Int}
    (hnumber : Plain number) (hmessage : Plain message) (hscan : scanInt number = some length)
    (hshort : number.length + message.length < 700)
    (h : sd.pending = response name.chars number message ++ more) :
    ∃ sd' : Pipe Byte, receive sd = fetch length sd' ∧ sd'.pending = more := by
  obtain ⟨hcrlf, hzero⟩ := response_line name.crlfFree name.noZero hnumber hmessage
  have hsize : (name.chars ++ ascii ',' :: (number ++ ascii ',' :: message)).length < 1000 := by
    have hname := name.short
    simp only [List.length_append, List.length_cons]
    omega
  obtain ⟨sd', hline, hmore⟩ := getNvtLine_eq hcrlf hzero hsize h
  refine ⟨sd', ?_, hmore⟩
  calc receive sd
      = (match responseLength (name.chars ++ ascii ',' :: (number ++ ascii ',' :: message)) with
        | none => .error .fails
        | some length => fetch length sd') := by
        rw [receive, hline]
        rfl
    _ = fetch length sd' := by rw [responseLength_eq hnumber hmessage hscan]

/-- An error is reported, and nothing else is read. -/
theorem receive_error (name : Name) {message : List Byte} (hmessage : Plain message)
    (hshort : message.length < 600)
    (h : sd.pending = response name.chars (text "-1") message ++ more) :
    ∃ sd' : Pipe Byte, receive sd = .ok (none, sd') ∧ sd'.pending = more := by
  have hlength : (text "-1").length = 2 := by decide
  have hscan : scanInt (text "-1") = some (-1) := by decide
  have hplain : Plain (text "-1") := by decide
  obtain ⟨sd', hreceive, hmore⟩ := receive_response name hplain hmessage hscan (by omega) h
  exact ⟨sd', hreceive, hmore⟩

/-- A file is reported, and its bytes are read. -/
theorem receive_file (name : Name) (contents : Contents)
    (h : sd.pending = response name.chars (decimalInt contents.bytes.length) (text "Ok") ++
      (contents.bytes ++ more)) :
    ∃ sd' : Pipe Byte, receive sd = .ok (some contents.bytes, sd') ∧ sd'.pending = more := by
  have hsmall := contents.small
  have hdecimal : decimalInt contents.bytes.length = decimal contents.bytes.length :=
    if_neg (by omega)
  have hdigits : (decimal contents.bytes.length).length ≤ 10 :=
    (length_decimal_le_iff (by decide)).mpr (by omega)
  have hscan : scanInt (decimal contents.bytes.length) = some (contents.bytes.length : Int) := by
    rw [← List.append_nil (decimal _), ← hdecimal]
    exact scanInt_decimalInt _ (by simp)
  have hlength : (text "Ok").length = 2 := by decide
  have hplain : Plain (text "Ok") := by decide
  rw [hdecimal] at h
  obtain ⟨sd₁, hreceive, hrest⟩ :=
    receive_response name (plain_decimal _) hplain hscan (by omega) h
  obtain ⟨sd', hfetch, hmore⟩ := fetch_length hsmall hrest
  exact ⟨sd', hreceive.trans hfetch, hmore⟩

/-- The client gets the file that the server reports, or nothing. -/
theorem receive_processLine (name : Name) (found : Found)
    (h : sd.pending = processLine name.chars found ++ more) :
    ∃ sd' : Pipe Byte, receive sd = .ok (found.reported, sd') ∧ sd'.pending = more := by
  simp only [processLine, if_neg name.nonempty] at h
  cases found with
  | denied => exact receive_error name (by simp [Plain, text, ascii, lf]) (by simp [text]) h
  | unopened => exact receive_error name (by simp [Plain, text, ascii, lf]) (by simp [text]) h
  | file contents =>
      simp only [copyFile_eq (Nat.lt_succ_self _), List.append_assoc] at h
      exact receive_file name contents h

/-- The server answers the name that was sent. -/
theorem doConnection_eq (name : Name) (files : List Byte → Found)
    (h : sd.pending = name.chars ++ crlf ++ more) :
    ∃ sd' : Pipe Byte, doConnection files sd = .ok ((files name.chars).reported,
        processLine name.chars (files name.chars), sd') ∧ sd'.pending = more := by
  have hsize : name.chars.length < 256 := Nat.lt_succ_of_le name.short
  obtain ⟨sd', hline, hmore⟩ := getNvtLine_eq name.crlfFree name.noZero hsize h
  refine ⟨sd', ?_, hmore⟩
  calc doConnection files sd
      = (if name.chars = [] then .error .fails
        else .ok ((files name.chars).reported,
          processLine name.chars (files name.chars), sd')) := by
        rw [doConnection, hline]
        rfl
    _ = .ok ((files name.chars).reported, processLine name.chars (files name.chars), sd') :=
        if_neg name.nonempty

namespace Session

variable {s : Session}

/-- A round keeps both sides in step. -/
theorem InStep.round (h : s.InStep) (r : Round) :
    ∃ t, s.round r = .ok t ∧ t.InStep ∧
      t.reported = s.reported ++ [(r.files r.name.chars).reported] := by
  have hrequest : (s.toServer.write (r.name.chars ++ crlf)).pending = r.name.chars ++ crlf ++ [] := by
    rw [Pipe.write, h.toServer, List.nil_append, List.append_nil]
  obtain ⟨toServer, hserver, htoServer⟩ := doConnection_eq r.name r.files hrequest
  have hanswer : (s.toClient.write (processLine r.name.chars (r.files r.name.chars))).pending =
      processLine r.name.chars (r.files r.name.chars) ++ [] := by
    rw [Pipe.write, h.toClient, List.nil_append, List.append_nil]
  obtain ⟨toClient, hclient, htoClient⟩ := receive_processLine r.name (r.files r.name.chars) hanswer
  let out := (r.files r.name.chars).reported
  refine ⟨{
    toServer := toServer
    toClient := toClient
    rcvd := out <|> s.rcvd
    reported := s.reported ++ [out]
    written := s.written ++ [out] }, ?_, ⟨htoServer, htoClient, ?_, ?_⟩, rfl⟩
  · rw [Session.round, hserver]
    simp only [Except.bind, bind, hclient]
    rfl
  · simp only [h.written]
  · intro bytes hlast
    rw [List.getLast?_concat, Option.some.injEq] at hlast
    rw [hlast]
    rfl

theorem inStep_start (toServer toClient : Nat → Nat) (rcvd : Option (List Byte)) :
    (start toServer toClient rcvd).InStep :=
  ⟨rfl, rfl, rfl, nofun⟩

/-- From any state in which both sides are in step, every session runs through and keeps them so. -/
theorem InStep.session (h : s.InStep) (rounds : List Round) :
    Always step InStep s rounds ∧ ∃ t, exec step s rounds = some t ∧
      t.reported = s.reported ++ rounds.map fun r => (r.files r.name.chars).reported := by
  induction rounds generalizing s with
  | nil => exact ⟨h, s, rfl, (List.append_nil _).symm⟩
  | cons r rest ih =>
      obtain ⟨u, hround, hu, hreported⟩ := h.round r
      have hstep : step s r = some u := by
        rw [step, hround]
        rfl
      obtain ⟨halways, t, hexec, ht⟩ := ih hu
      refine ⟨⟨h, fun v hv => ?_⟩, t, exec_cons.mpr ⟨u, hstep, hexec⟩, ?_⟩
      · obtain rfl := Option.some.inj (hstep.symm.trans hv)
        exact halways
      · rw [ht, hreported, List.append_assoc]
        rfl

/-- In every session, however the streams are cut, the client writes exactly the files that the server
reports, and both sides are at the same place after every round. -/
theorem fileService_inStep (toServer toClient : Nat → Nat) (rcvd : Option (List Byte))
    (rounds : List Round) :
    Always step InStep (start toServer toClient rcvd) rounds ∧
      ∃ t, exec step (start toServer toClient rcvd) rounds = some t ∧
        t.reported = rounds.map fun r => (r.files r.name.chars).reported :=
  (inStep_start toServer toClient rcvd).session rounds

end Session

end NetworkStack.FileService
