import NetworkStack.Router.AuthRequest
import NetworkStack.Vns.ToRouter

/-!
# Authentication from end to end

The controller sends a salt, the router answers with the user's name and the digest of the salt
and the key, and the controller reads both out of the answer.
-/

namespace NetworkStack.Vns

open Bytes Decimal Lines Router

/-- The router's handler of a request. -/
theorem dispatch_authRequest {session : Session} {salt digest : List Byte} (sr : SrInstance)
    (env : Env) (fresh : Mac × Addr) (h : session.digest salt = some digest) :
    dispatch sr session vnsAuthRequest (commandBytes vnsAuthRequest salt) env fresh =
      some { Outcome.quiet sr 1 with sent := authReplyMessage session.user digest } := by
  have hsalt : (commandBytes vnsAuthRequest salt).drop baseLen = salt := List.drop_left' rfl
  rw [dispatch, if_neg (by decide), if_neg (by decide), if_neg (by decide), if_neg (by decide),
    if_pos rfl, hsalt, h]
  rfl

theorem digest_keySession {file line rest salt : List Byte}
    (hline : fgets (authKeyLen + 1) file = some (line, rest)) (hsalt : salt.length ≤ 9992)
    (user uninit : List Byte) (sha1 : SHA1Context) (rtableWritable : Bool) :
    (keySession user (some file) uninit sha1 rtableWritable).digest salt =
      some (SecureHash.digest (salt ++ (keyArray uninit line).take authKeyLen)).bytes := by
  have hline := authDigest_of_line hline (show salt.length < 2 ^ 32 by omega) uninit sha1
  change (authDigest (some file) uninit sha1 salt).join = _
  rw [hline]
  rfl

/-- A request that the router reads is answered with the digest of the salt and the key array,
and the answer comes to the controller as it was meant, however both are cut. -/
theorem authReply_of_request {file line rest salt user : List Byte}
    (hline : fgets (authKeyLen + 1) file = some (line, rest)) (hsalt : salt.length ≤ 9992)
    (huser : user.length + 32 < 2 ^ 31) (uninit : List Byte) (sha1 : SHA1Context)
    (rtableWritable : Bool) :
    ∃ request, packWithHeader (.vnsAuthRequest salt) = some request ∧
      ∀ (sr : SrInstance) expectedCmd chunks more env fresh,
        expectedCmd = 0 ∨ expectedCmd = vnsAuthRequest → chunks.flatten = request ++ more →
        ∃ outcome rest',
          srReadFromServerExpect sr (keySession user (some file) uninit sha1 rtableWritable)
            expectedCmd chunks env fresh = some (outcome, rest') ∧
          rest'.flatten = more ∧ outcome.ret = 1 ∧ outcome.sr = sr ∧
          ∀ pieces : List (List Byte), pieces.flatten = outcome.sent →
            dataReceived pieces = some ([some (.vnsAuthReply user
              (SecureHash.digest (salt ++ (keyArray uninit line).take authKeyLen)).bytes)], []) := by
  refine ⟨commandBytes vnsAuthRequest salt,
    packWithHeader_commandBytes vnsAuthRequest rfl (by omega) rfl, ?_⟩
  intro sr expectedCmd chunks more env fresh hexpected hchunks
  have hdigest := digest_keySession hline hsalt user uninit sha1 rtableWritable
  obtain ⟨rest', hrest, hread⟩ := srReadFromServerExpect_command sr fresh
    (show 8 + salt.length ≤ 10000 by omega) hexpected hchunks
  rw [dispatch_authRequest sr env fresh hdigest] at hread
  refine ⟨_, rest', hread, hrest, rfl, rfl, fun pieces hpieces => ?_⟩
  refine dataReceived_emitted (.cons (.authReply huser rfl) .nil) ?_
  rw [List.flatten_singleton]
  exact hpieces

/-- A key that ends with its line, behind which the array is hashed as it was. -/
theorem authReply_of_shortKey :
    ∃ request, packWithHeader (.vnsAuthRequest (List.replicate 20 7)) = some request ∧
      ∀ (sr : SrInstance) expectedCmd chunks more env fresh,
        expectedCmd = 0 ∨ expectedCmd = vnsAuthRequest → chunks.flatten = request ++ more →
        ∃ outcome rest',
          srReadFromServerExpect sr
            (keySession (text "user") (some (text "secret\n")) (List.replicate 65 9)
              ⟨.replicate 5 0, 0, 0, .replicate 64 0, 0, false, false⟩ true)
            expectedCmd chunks env fresh = some (outcome, rest') ∧
          rest'.flatten = more ∧ outcome.ret = 1 ∧ outcome.sr = sr ∧
          ∀ pieces : List (List Byte), pieces.flatten = outcome.sent →
            dataReceived pieces = some ([some (.vnsAuthReply (text "user")
              (SecureHash.digest (List.replicate 20 7 ++
                (keyArray (List.replicate 65 9) (text "secret\n")).take authKeyLen)).bytes)], []) :=
  authReply_of_request (show fgets (authKeyLen + 1) (text "secret\n") = some (text "secret\n", [])
    by decide) (by decide) (by decide) _ _ _

end NetworkStack.Vns
