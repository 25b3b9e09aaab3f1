import NetworkStack.Lib.Lines
import NetworkStack.Router.Sha1Digest
import NetworkStack.Router.VnsComm

/-!
# The router's answer to an authentication request

`sr_handle_auth_request` reads the first line of the key file into an array on the stack and
hashes the salt and then the array, of which only the terminator itself is left out if the line
fills it. The outer `none` is an access outside of an array, the inner one a failure.
-/

namespace NetworkStack.Router

open Bytes NetworkStack.Computation Lines SecureHash

/-- `AUTH_KEY_LEN`. -/
def authKeyLen : Nat := 64

/-- The array `auth_key`, which held `uninit`, after a line was read into it. -/
def keyArray (uninit line : List Byte) : List Byte := line ++ 0 :: uninit.drop (line.length + 1)

/-- The digest in network order. -/
def digestBytes (context : SHA1Context) : List Byte :=
  context.messageDigest.toList.flatMap fun x => le32 (swap32 x)

/-- `sr_handle_auth_request` up to the digest. -/
def authDigest (keyFile : Option (List Byte)) (uninit : List Byte) (sha1 : SHA1Context)
    (salt : List Byte) : Option (Option (List Byte)) :=
  match keyFile with
  | none => some none
  | some file =>
      match fgets (authKeyLen + 1) file with
      | none => some none
      | some (line, _) => do
          let sha1 ← sha1Input (sha1Reset sha1) salt
          let sha1 ← sha1Input sha1 ((keyArray uninit line).take authKeyLen)
          let (ret, sha1) ← sha1Result sha1
          return if ret = 0 then none else some (digestBytes sha1)

/-- The session of a user whose key is in this file. -/
def keySession (user : List Byte) (keyFile : Option (List Byte)) (uninit : List Byte)
    (sha1 : SHA1Context) (rtableWritable : Bool) : Session where
  user := user
  digest := fun salt => (authDigest keyFile uninit sha1 salt).join
  rtableWritable := rtableWritable

variable {line file rest salt : List Byte}

theorem digestBytes_eq (context : SHA1Context) : digestBytes context = context.digest.bytes := by
  obtain ⟨⟨⟨words⟩, hsize⟩, low, high, block, index, computed, corrupted⟩ := context
  match words, hsize with
  | [_, _, _, _, _], _ =>
      simp [digestBytes, le32_swap32, SHA1Context.digest, SHA1Context.buffers,
        WordBuffers.digest, Digest.bytes]

/-- The whole array is hashed behind the salt. -/
theorem authDigest_of_line (hline : fgets (authKeyLen + 1) file = some (line, rest))
    (hsalt : salt.length < 2 ^ 32) (uninit : List Byte) (sha1 : SHA1Context) :
    authDigest (some file) uninit sha1 salt =
      some (some (SecureHash.digest (salt ++ (keyArray uninit line).take authKeyLen)).bytes) := by
  set key := (keyArray uninit line).take authKeyLen with hkey
  have hkeyLen : key.length ≤ 64 := List.length_take_le _ _
  obtain ⟨c₁, hinput₁, h₁⟩ := realizes_input (realizes_reset sha1) salt
  rw [HashStatus.next, List.nil_append, HashStatus.of_lt (by omega)] at h₁
  obtain ⟨c₂, hinput₂, h₂⟩ := realizes_input h₁ key
  rw [HashStatus.next, HashStatus.of_lt (by rw [List.length_append]; omega)] at h₂
  obtain ⟨c₃, hresult, -, hdigest⟩ := realizes_result h₂
  have hthird : c₃.digest = SecureHash.digest (salt ++ key) := hdigest _ rfl
  rw [authDigest, hline]
  dsimp only
  rw [bind_of_some hinput₁, ← hkey, bind_of_some hinput₂, bind_of_some hresult, ← hthird,
    ← digestBytes_eq]
  rfl

theorem keyArray_eq (uninit line : List Byte) :
    keyArray uninit line = line ++ [0] ++ uninit.drop (line.length + 1) := by
  rw [keyArray, List.append_assoc, List.singleton_append]

/-- Only a line of 63 bytes or more leaves nothing of the array to chance. -/
theorem take_keyArray_const (hline : line.length ≤ authKeyLen) :
    (∀ u u' : List Byte, u.length = authKeyLen + 1 → u'.length = authKeyLen + 1 →
      (keyArray u line).take authKeyLen = (keyArray u' line).take authKeyLen) ↔
      authKeyLen ≤ line.length + 1 := by
  have hfront : (line ++ [0]).length = line.length + 1 := List.length_append
  constructor
  · intro h
    by_contra hshort
    have hnext (x : Byte) :
        ((keyArray (List.replicate (authKeyLen + 1) x) line).take authKeyLen)[line.length + 1]? =
          some x := by
      rw [List.getElem?_take_of_lt (by omega), keyArray_eq,
        List.getElem?_append_right (by omega), hfront, Nat.sub_self, List.getElem?_drop]
      exact List.getElem?_replicate_of_lt (by omega)
    have heq := h (List.replicate (authKeyLen + 1) 0) (List.replicate (authKeyLen + 1) 1)
      List.length_replicate List.length_replicate
    have hlast := hnext 0
    rw [heq, hnext 1] at hlast
    exact absurd hlast (by decide)
  · intro hlong u u' _ _
    have hcut (u : List Byte) :
        (keyArray u line).take authKeyLen = (line ++ [0]).take authKeyLen := by
      rw [keyArray_eq, List.take_append_of_le_length (by omega)]
    rw [hcut, hcut]

end NetworkStack.Router
