import NetworkStack.Lib.Retry
import NetworkStack.Router.MainLoop

/-!
# Reading a command

`sr_read_from_server_expect` reads the length of a command and then the rest of it, each in a
loop of its own around `recv` and `read`. A call that a signal breaks is made again and an error
ends the function, but a call that returns zero counts as a short read: when the server has
closed the connection, a loop that misses bytes never ends.

## Implementation notes

The functions of `VnsComm` read pieces of data and are undefined where the stream ends too
early. Here the calls can also be interrupted or fail, and the loops are run with a bound on the
calls, so that one that goes on for ever can be told from undefined behaviour of a handler.
-/

namespace NetworkStack.Router

open Bytes Buffer Chunks Retry

/-- `len`, once its four bytes are there. -/
def lenField (lenBytes : List Byte) : BitVec 32 := swap32 ((load32 lenBytes 0).getD 0)

/-- The length is refused. -/
def BadLength (len : BitVec 32) : Prop := len.toInt > 10000 ∨ len.toInt < 0

instance (len : BitVec 32) : Decidable (BadLength len) := inferInstanceAs (Decidable (_ ∨ _))

/-- What comes after the loops. The type of a command is read from its second word. -/
def handleCommand (sr : SrInstance) (session : Session) (expectedCmd len : BitVec 32)
    (buf : List Byte) (env : Env) (uninit : Mac × Addr) : Option Outcome :=
  if len.toNat < baseLen then none
  else do
    let command := swap32 (← load32 buf 4)
    if expectedCmd ≠ 0 ∧ command ≠ expectedCmd ∧ command ≠ vnsClose then return .quiet sr (-1)
    else dispatch sr session command buf env uninit

/-- `sr_read_from_server_expect` with no more than `fuel` calls in each loop: `none` if one of
the loops is not done. What the function does then is `none` where it is undefined. -/
def readFromServerWithin (fuel : Nat) (sr : SrInstance) (session : Session)
    (expectedCmd : BitVec 32) (events : List (Event Byte)) (env : Env) (uninit : Mac × Addr) :
    Option (Option (Outcome × List (Event Byte))) :=
  match readLoop fuel events 4 with
  | none => none
  | some (none, rest) => some (some (.quiet sr (-1), rest))
  | some (some lenBytes, rest) =>
      if BadLength (lenField lenBytes) then some (some (.quiet sr (-1), rest))
      else
        match readLoop fuel rest ((lenField lenBytes).toNat - 4) with
        | none => none
        | some (none, rest) => some (some (.quiet sr (-1), rest))
        | some (some body, rest) =>
            some ((handleCommand sr session expectedCmd (lenField lenBytes) (lenBytes ++ body) env
              uninit).map (·, rest))

/-- The loops of `sr_read_from_server_expect` end. The handlers have none that waits. -/
def Returns (sr : SrInstance) (session : Session) (expectedCmd : BitVec 32)
    (events : List (Event Byte)) (env : Env) (uninit : Mac × Addr) : Prop :=
  ∃ fuel, (readFromServerWithin fuel sr session expectedCmd events env uninit).isSome

/-- A stream that starts with a whole command, or with a length that is refused. -/
def CommandThere (stream : List Byte) : Prop :=
  4 ≤ stream.length ∧
    (BadLength (lenField (stream.take 4)) ∨ (lenField (stream.take 4)).toNat ≤ stream.length)

instance (stream : List Byte) : Decidable (CommandThere stream) :=
  inferInstanceAs (Decidable (_ ∧ _))

variable {sr : SrInstance} {session : Session} {expectedCmd : BitVec 32}
  {events : List (Event Byte)} {env : Env} {uninit : Mac × Addr} {fuel : Nat}

/-- The rest of a stream has the body if the stream has the command. -/
theorem body_there_iff {rest : List (Event Byte)} {stream : List Byte} {len : BitVec 32}
    (hlen : 4 ≤ stream.length) (hrest : bytes rest = stream.drop 4) :
    len.toNat - 4 ≤ (bytes rest).length ↔ len.toNat ≤ stream.length := by
  rw [hrest, List.length_drop]
  omega

/-- A length or a body that is not finished is waited for in vain. -/
theorem commandThere_of_isSome
    (h : (readFromServerWithin fuel sr session expectedCmd events env uninit).isSome) :
    .failure ∈ events ∨ CommandThere (bytes events) := by
  unfold readFromServerWithin at h
  split at h
  case h_1 => cases h
  case h_2 hloop =>
    cases readLoop_ended hloop with
    | failed hfailure => exact .inl hfailure
  case h_3 lenBytes rest hloop =>
    cases readLoop_ended hloop with
    | complete hcount hrest hfailure _ =>
        split at h
        case isTrue hbad => exact .inr ⟨hcount, .inl hbad⟩
        case isFalse =>
          split at h
          case h_1 => cases h
          case h_2 hbody =>
            cases readLoop_ended hbody with
            | failed hmem => exact .inl (hfailure.mp hmem)
          case h_3 hbody =>
            cases readLoop_ended hbody with
            | complete hthere _ _ _ =>
                exact .inr ⟨hcount, .inr ((body_there_iff hcount hrest).mp hthere)⟩

theorem isSome_of_commandThere (h : .failure ∈ events ∨ CommandThere (bytes events)) :
    (readFromServerWithin (weight events) sr session expectedCmd events env uninit).isSome := by
  have hfirst : (readLoop (weight events) events 4).isSome :=
    readLoop_isSome (Nat.le_refl _) (h.imp_right And.left)
  obtain ⟨⟨lenBytes, rest⟩, hloop⟩ := Option.isSome_iff_exists.mp hfirst
  rw [readFromServerWithin, hloop]
  cases readLoop_ended hloop with
  | failed _ => rfl
  | complete hcount hrest hfailure hweight =>
      simp only
      split
      case isTrue => rfl
      case isFalse hgood =>
        have hsecond : (readLoop (weight events) rest
            ((lenField ((bytes events).take 4)).toNat - 4)).isSome := by
          apply readLoop_isSome hweight
          refine h.imp hfailure.mpr fun hthere => ?_
          exact (body_there_iff hcount hrest).mpr (hthere.2.resolve_left hgood)
        obtain ⟨⟨body, left⟩, hbody⟩ := Option.isSome_iff_exists.mp hsecond
        rw [hbody]
        cases body <;> rfl

/-- The function of `VnsComm`, with what it does after its loops. -/
theorem srReadFromServerExpect_eq (chunks : List (List Byte)) :
    srReadFromServerExpect sr session expectedCmd chunks env uninit =
      (readAll chunks 4).bind fun r => (load32 r.1 0).bind fun word =>
        if BadLength (swap32 word) then some (.quiet sr (-1), r.2)
        else if (swap32 word).toNat < baseLen then none
        else (readAll r.2 ((swap32 word).toNat - 4)).bind fun s =>
          (handleCommand sr session expectedCmd (swap32 word) (r.1 ++ s.1) env uninit).map
            (·, s.2) := by
  unfold srReadFromServerExpect
  refine Option.bind_congr fun r _ => Option.bind_congr fun word _ => ?_
  refine if_congr Iff.rfl rfl ?_
  split
  case isTrue => rfl
  case isFalse hbase =>
    refine Option.bind_congr fun s _ => ?_
    simp only [handleCommand, if_neg hbase]
    cases load32 (r.1 ++ s.1) 4 with
    | none => rfl
    | some command =>
        simp only [Option.bind_eq_bind, Option.bind_some]
        split
        · rfl
        · cases dispatch sr session (swap32 command) (r.1 ++ s.1) env uninit <;> rfl

/-- Where no call fails, signals and short reads make no difference to what is done with a
command. -/
theorem readFromServerWithin_eq {chunks rest : List (List Byte)} {outcome : Outcome}
    (hchunks : chunks.flatten = bytes events) (hfailure : .failure ∉ events)
    (h : srReadFromServerExpect sr session expectedCmd chunks env uninit = some (outcome, rest)) :
    ∃ left, bytes left = rest.flatten ∧
      readFromServerWithin (weight events) sr session expectedCmd events env uninit =
        some (some (outcome, left)) := by
  rw [srReadFromServerExpect_eq] at h
  obtain ⟨⟨lenBytes, rest₁⟩, hread, h⟩ := Option.bind_eq_some_iff.mp h
  obtain ⟨word, hword, h⟩ := Option.bind_eq_some_iff.mp h
  obtain ⟨rfl, hcount, hrest₁⟩ := eq_of_readAll hread
  rw [hchunks] at hword hcount hrest₁
  obtain ⟨left₁, hloop, hleft₁, hfailure₁, hweight₁⟩ :=
    readLoop_eq (Nat.le_refl (weight events)) hfailure hcount
  have hfield : lenField ((bytes events).take 4) = swap32 word := by
    rw [lenField, hword, Option.getD_some]
  simp only [readFromServerWithin, hloop, hfield]
  split at h
  case isTrue hbad =>
    obtain ⟨rfl, rfl⟩ := Prod.mk.inj (Option.some.inj h)
    rw [if_pos hbad]
    exact ⟨left₁, hleft₁.trans hrest₁.symm, rfl⟩
  case isFalse hgood =>
    rw [if_neg hgood]
    split at h
    case isTrue => cases h
    case isFalse hbase =>
      obtain ⟨⟨body, rest₂⟩, hread₂, h⟩ := Option.bind_eq_some_iff.mp h
      obtain ⟨rfl, hcount₂, hrest₂⟩ := eq_of_readAll hread₂
      rw [hrest₁, ← hleft₁] at hcount₂ hrest₂
      obtain ⟨left₂, hloop₂, hleft₂, -, -⟩ := readLoop_eq hweight₁ hfailure₁ hcount₂
      rw [hchunks, hrest₁, ← hleft₁] at h
      obtain ⟨o, hhandle, heq⟩ := Option.map_eq_some_iff.mp h
      obtain ⟨rfl, rfl⟩ := Prod.mk.inj heq
      refine ⟨left₂, hleft₂.trans hrest₂.symm, ?_⟩
      simp only [hloop₂, hhandle, Option.map_some]

/-- For every stream, however it is cut and interrupted: the function returns if a call fails
before the end of the stream, or else if the stream has a whole command or a length that is
refused. -/
theorem returns_iff (sr : SrInstance) (session : Session) (expectedCmd : BitVec 32)
    (events : List (Event Byte)) (env : Env) (uninit : Mac × Addr) :
    Returns sr session expectedCmd events env uninit ↔
      .failure ∈ events ∨ CommandThere (bytes events) := by
  constructor
  · rintro ⟨fuel, h⟩
    exact commandThere_of_isSome h
  · intro h
    exact ⟨weight events, isSome_of_commandThere h⟩

/-- The server closes the connection: at once, inside the length, and inside the body. -/
theorem loops_at_endOfFile :
    ¬Returns (srInit [] []) ⟨[], fun _ => none, true⟩ 0 [] ⟨0, 0, 0⟩ (0, 0) ∧
    ¬Returns (srInit [] []) ⟨[], fun _ => none, true⟩ 0 [.data 0 [0], .interrupt, .data 0 []]
      ⟨0, 0, 0⟩ (0, 0) ∧
    ¬Returns (srInit [] []) ⟨[], fun _ => none, true⟩ 0 [.data 0 [0, 0, 12, 0, 0, 0, 8]]
      ⟨0, 0, 0⟩ (0, 0) := by
  refine ⟨?_, ?_, ?_⟩
  all_goals
    rintro ⟨fuel, h⟩
    exact absurd (commandThere_of_isSome h) (by decide)

end NetworkStack.Router
