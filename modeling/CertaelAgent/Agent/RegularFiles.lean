import CertaelAgent.Foundation.Anyhow
import CertaelAgent.Foundation.FilePrograms

/-!
# Bounded regular files

The registry and the branding of a game read files that have to be regular, not empty and not
longer than a bound, and write files that must not be there yet.
-/

namespace CertaelAgent.Agent

open ProtoWire Files Program Anyhow

/-- A program whose errors have contexts. -/
abbrev AgentProgram (α : Type) := FileProgram Anyhow.Error α

/-- Puts a text in front of an error of the program. -/
def withContext {α : Type} (text : String) (p : AgentProgram α) : AgentProgram α :=
  attempt p >>= fun result => done (context text result)

def readRegular (path : Path) (maximum : ℕ) : AgentProgram Bytes := do
  let metadata ← expect .io (symlinkMetadata path)
  require (.message "file is not a bounded regular file")
    (metadata.fileType = .file ∧ metadata.len ≠ 0 ∧ metadata.len ≤ maximum)
  let content ← expect .io (read path)
  let bytes := content.take (maximum + 1)
  require (.message "file exceeds its size limit") (bytes.length ≤ maximum)
  return bytes

def writeNew (path : Path) (bytes : Bytes) : AgentProgram Unit := do
  ensure .io (createNew path)
  ensure .io (setPermissions path 0o644)
  ensure .io (append path bytes)
  ensure .io (syncAll path)

section

variable {α : Type} {fs : FileSystem}

theorem eval_withContext_eq_ok_iff {text : String} {p : AgentProgram α} (hp : ReadOnly device p)
    {a : α} : eval device (withContext text p) fs = .ok a ↔ eval device p fs = .ok a := by
  unfold withContext
  rw [hp.attempt.eval_bind, eval_attempt]
  exact context_eq_ok_iff

theorem readOnly_withContext {text : String} {p : AgentProgram α} (hp : ReadOnly device p) :
    ReadOnly device (withContext text p) :=
  hp.attempt.bind fun _ => trivial

theorem readOnly_readRegular (path : Path) (maximum : ℕ) :
    ReadOnly device (readRegular path maximum) := by
  apply (cautious_symlinkMetadata _ _).readOnly.bind
  intro metadata
  apply (Cautious.require _ _).readOnly.bind
  intro _
  apply (cautious_read _ _).readOnly.bind
  intro content
  exact (Cautious.require _ _).readOnly.bind fun _ => trivial

theorem cautious_withContext {text : String} {p : AgentProgram α} (hp : Cautious device p) :
    Cautious device (withContext text p) := by
  unfold withContext
  induction p with
  | done result => trivial
  | call op next ih =>
    obtain ⟨hreads, ⟨e, he⟩, hnext⟩ := hp
    refine ⟨hreads, ⟨.context text e, ?_⟩, fun reply => ih reply (hnext reply)⟩
    simp only [he]
    rfl

theorem cautious_readRegular (path : Path) (maximum : ℕ) :
    Cautious device (readRegular path maximum) := by
  apply (cautious_symlinkMetadata _ _).bind
  intro metadata
  apply (Cautious.require _ _).bind
  intro _
  apply (cautious_read _ _).bind
  intro content
  exact (Cautious.require _ _).bind fun _ => trivial

theorem eval_withContext_bind_iff {β : Type} {text : String} {p : AgentProgram α}
    (hp : ReadOnly device p) {f : α → AgentProgram β} {b : β} :
    eval device (withContext text p >>= f) fs = .ok b ↔
      ∃ a, eval device p fs = .ok a ∧ eval device (f a) fs = .ok b := by
  rw [(readOnly_withContext hp).eval_bind_eq_ok_iff]
  simp only [eval_withContext_eq_ok_iff hp]

theorem eval_readRegular_iff {path : Path} {maximum : ℕ} {bytes : Bytes} :
    eval device (readRegular path maximum) fs = .ok bytes ↔
      ∃ q mode, fs.locate path = some q ∧ fs.node q = some (.file bytes mode) ∧ bytes ≠ [] ∧
        bytes.length ≤ maximum := by
  unfold readRegular
  simp only [eval_symlinkMetadata_bind_iff, eval_require_bind_eq_ok_iff, eval_read_bind_iff,
    pure_eq_done, eval_done, Except.ok.injEq]
  constructor
  · rintro ⟨metadata, hmetadata, ⟨hfile, hne, hmax⟩, content, hcontent, -, rfl⟩
    obtain ⟨n, hn, rfl⟩ := Option.map_eq_some_iff.mp hmetadata
    obtain ⟨q, hq, hnode⟩ := Option.bind_eq_some_iff.mp hn
    cases n with
    | directory writable => cases hfile
    | symlink absolute target => cases hfile
    | file found mode =>
      have hfound := FileSystem.contentAt_of_canonicalize
        (FileSystem.canonicalize_of_locate hq (FileSystem.real_of_file hnode)) hnode
      obtain rfl := Option.some.inj (hfound.symm.trans hcontent)
      have hlen : found.length ≤ maximum := hmax
      rw [List.take_of_length_le (by omega)]
      exact ⟨q, mode, hq, hnode, List.length_pos_iff.mp (Nat.pos_of_ne_zero hne), hlen⟩
  · rintro ⟨q, mode, hq, hnode, hne, hmax⟩
    have hcontent := FileSystem.contentAt_of_canonicalize
      (FileSystem.canonicalize_of_locate hq (FileSystem.real_of_file hnode)) hnode
    have htake : bytes.take (maximum + 1) = bytes := List.take_of_length_le (by omega)
    refine ⟨(Node.file bytes mode).metadata, ?_, ⟨rfl, by simpa [Node.metadata] using hne, hmax⟩,
      bytes, hcontent, by rwa [htake], htake⟩
    rw [FileSystem.metadataAt, hq, Option.bind_some, hnode]
    rfl

end

end CertaelAgent.Agent
