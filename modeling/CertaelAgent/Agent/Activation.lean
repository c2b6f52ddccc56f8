import CertaelAgent.Agent.Staging

/-!
# Putting a registration into its place

A call works on three entries of the registry: the directory of the registration, its backup and
the staging directory of the call. However it ends, nothing changes but these entries and the
directories that were missing on the way to the registry; if it ends well, the directory of the
registration holds what has been prepared.
-/

namespace CertaelAgent.Agent

open ProtoWire Files Files.FileSystem Program

/-! ## Names -/

/-- The entries of the registry that a call works on. -/
def workingNames (now : Moment) (registrationId : String) : List String :=
  registrationId :: backupName registrationId ::
    (now.sinceEpoch.map (stagingName now.processId)).toList

theorem ordinary_of_head {name : String} (rest : String) (c : Char) (h : name = "." ++ rest)
    (hrest : rest.toList.head? = some c) (hc : c ≠ '.') : Ordinary name := by
  have hname : name.toList = '.' :: rest.toList := by rw [h, String.toList_append]; rfl
  obtain ⟨cs, hcs⟩ := List.head?_eq_some_iff.mp hrest
  rw [hcs] at hname
  refine ⟨?_, ?_, ?_⟩ <;>
  · rintro rfl
    simp [hc.symm] at hname

theorem ordinary_backupName (registrationId : String) : Ordinary (backupName registrationId) := by
  apply ordinary_of_head ("backup-" ++ registrationId) 'b'
  · rw [backupName, ← String.append_assoc]
    rfl
  · simp
  · decide

theorem ordinary_stagingName (processId nonce : ℕ) : Ordinary (stagingName processId nonce) := by
  apply ordinary_of_head ("register-" ++ toString processId ++ "-" ++ toString nonce) 'r'
  · simp only [stagingName, ← String.append_assoc]
    rfl
  · simp
  · decide

theorem backupName_ne (registrationId : String) : backupName registrationId ≠ registrationId := by
  intro h
  have hlen := congrArg String.length h
  rw [backupName, String.length_append] at hlen
  have hfixed : ".backup-".length = 8 := rfl
  omega

theorem stagingName_ne_backupName (processId nonce : ℕ) (registrationId : String) :
    stagingName processId nonce ≠ backupName registrationId := by
  intro h
  have hhead := congrArg (fun name => name.toList.drop 1 |>.head?) h
  simp [stagingName, backupName] at hhead

end CertaelAgent.Agent
