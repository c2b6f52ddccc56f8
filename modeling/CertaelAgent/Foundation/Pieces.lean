import CertaelAgent.Foundation.FilePrograms
import CertaelAgent.Foundation.Interference

/-!
# Files that are rewritten while they are read

A file is read one piece after the other, until a piece is empty. Another process that rewrites one
file may come between any two pieces, so that the reader gets some of the bytes from before and
some from after. Nothing but that file differs for the rewriting; a program that does not read it
runs as it does alone.
-/

namespace Files

open ProtoWire FileSystem Program

inductive PieceOp
  | whole (op : FsOp)
  | piece (path : Path) (offset : ℕ)
deriving DecidableEq, Repr

abbrev PieceOp.Reply : PieceOp → Type
  | .whole op => op.Reply
  | .piece _ _ => Option Bytes

/-- The size of the buffer that files are read into. -/
def bufferSize : ℕ := 64 * 1024

/-- What a read at the offset returns. -/
def pieceAt (content : Bytes) (offset : ℕ) : Bytes := (content.drop offset).take bufferSize

def pieceDevice : Device PieceOp PieceOp.Reply FileSystem where
  perform
    | .whole op => op.perform
    | .piece p offset => fun fs => ((fs.contentAt p).map (pieceAt · offset), fs)
  failed
    | .whole op => op.failed
    | .piece _ _ => none
  reads
    | .whole op => op.reads
    | .piece _ _ => true
  perform_reads op fs h := by
    cases op with
    | whole op => exact device.perform_reads op fs h
    | piece p offset => rfl

abbrev PieceProgram (ε α : Type) := Program PieceOp PieceOp.Reply ε α

variable {ε α β : Type}

/-- Reads on behind the bytes read so far, and gives up where the file has not ended after so many
pieces. -/
def readPieces (p : Path) : ℕ → Bytes → (Option Bytes → PieceProgram ε α) → PieceProgram ε α
  | 0, _, next => next none
  | fuel + 1, sofar, next =>
    .call (.piece p sofar.length) fun
      | none => next none
      | some [] => next (some sofar)
      | some bytes => readPieces p fuel (sofar ++ bytes) next

def carryOut (fuel : ℕ) : (op : FsOp) → (op.Reply → PieceProgram ε α) → PieceProgram ε α
  | .read p, next => readPieces p fuel [] next
  | op, next => .call (.whole op) next

/-- The program that reads files in pieces. -/
def inPieces (fuel : ℕ) : FileProgram ε α → PieceProgram ε α
  | .done result => .done result
  | .call op next => carryOut fuel op fun reply => inPieces fuel (next reply)

def FsOp.IsRead : FsOp → Prop
  | .read _ => True
  | _ => False

theorem carryOut_of_whole {fuel : ℕ} {op : FsOp} (h : ¬ op.IsRead)
    (next : op.Reply → PieceProgram ε α) : carryOut fuel op next = .call (.whole op) next := by
  cases op <;> first | rfl | exact absurd trivial h

theorem readPieces_bind {p : Path} {fuel : ℕ} {sofar : Bytes} {next : Option Bytes → PieceProgram ε α}
    {f : α → PieceProgram ε β} : readPieces p fuel sofar next >>= f =
      readPieces p fuel sofar fun reply => next reply >>= f := by
  induction fuel generalizing sofar with
  | zero => rfl
  | succ fuel ih =>
    change call _ _ = call _ _
    congr 1
    funext reply
    match reply with
    | none => rfl
    | some [] => rfl
    | some (b :: bytes) => exact ih

theorem readPieces_attempt {p : Path} {fuel : ℕ} {sofar : Bytes}
    {next : Option Bytes → PieceProgram ε α} : attempt (readPieces p fuel sofar next) =
      readPieces p fuel sofar fun reply => attempt (next reply) := by
  induction fuel generalizing sofar with
  | zero => rfl
  | succ fuel ih =>
    change call _ _ = call _ _
    congr 1
    funext reply
    match reply with
    | none => rfl
    | some [] => rfl
    | some (b :: bytes) => exact ih

theorem inPieces_bind (fuel : ℕ) (p : FileProgram ε α) (f : α → FileProgram ε β) :
    inPieces fuel (p >>= f) = inPieces fuel p >>= fun a => inPieces fuel (f a) := by
  induction p with
  | done result => cases result <;> rfl
  | call op next ih =>
    have hnext : (fun reply => inPieces fuel (next reply >>= f)) =
        fun reply => inPieces fuel (next reply) >>= fun a => inPieces fuel (f a) := funext ih
    change carryOut fuel op (fun reply => inPieces fuel (next reply >>= f)) =
      carryOut fuel op (fun reply => inPieces fuel (next reply)) >>= _
    rw [hnext]
    cases op with
    | read p => exact readPieces_bind.symm
    | _ => rfl

theorem inPieces_attempt (fuel : ℕ) (p : FileProgram ε α) :
    inPieces fuel (attempt p) = attempt (inPieces fuel p) := by
  induction p with
  | done result => rfl
  | call op next ih =>
    have hnext : (fun reply => inPieces fuel (attempt (next reply))) =
        fun reply => attempt (inPieces fuel (next reply)) := funext ih
    change carryOut fuel op (fun reply => inPieces fuel (attempt (next reply))) =
      attempt (carryOut fuel op fun reply => inPieces fuel (next reply))
    rw [hnext]
    cases op with
    | read p => exact readPieces_attempt.symm
    | _ => rfl

/-! ## Rewriting -/

/-- At most the bytes and the permissions of the file at the path differ. -/
def Rewrites (f : Path) (fs fs' : FileSystem) : Prop :=
  ∀ q, fs'.node q = fs.node q ∨ q = f ∧ ∃ content mode content' mode',
    fs.node q = some (.file content mode) ∧ fs'.node q = some (.file content' mode')

namespace Rewrites

variable {f : Path} {fs fs' fs'' : FileSystem}

theorem refl (f : Path) (fs : FileSystem) : Rewrites f fs fs := fun _ => .inl rfl

theorem trans (h : Rewrites f fs fs') (h' : Rewrites f fs' fs'') : Rewrites f fs fs'' := by
  intro q
  rcases h' q with hsame | ⟨hq, content, mode, content', mode', hnode, hnode'⟩
  · rw [hsame]
    exact h q
  · rcases h q with hsame | ⟨_, content₀, mode₀, _, _, hnode₀, _⟩
    · exact .inr ⟨hq, content, mode, content', mode', hsame ▸ hnode, hnode'⟩
    · exact .inr ⟨hq, content₀, mode₀, content', mode', hnode₀, hnode'⟩

theorem node (h : Rewrites f fs fs') {q : Path} (hq : q ≠ f) : fs'.node q = fs.node q := by
  rcases h q with hsame | ⟨heq, _⟩
  · exact hsame
  · exact absurd heq hq

theorem canonicalize (h : Rewrites f fs fs') (q : Path) : fs'.canonicalize q = fs.canonicalize q :=
  canonicalize_congr (fun p => (h p).imp_right And.right) q

theorem directory_iff (h : Rewrites f fs fs') {q : Path} : fs'.Directory q ↔ fs.Directory q := by
  rw [FileSystem.directory_iff, FileSystem.directory_iff]
  rcases h q with hsame | ⟨_, content, mode, content', mode', hnode, hnode'⟩
  · rw [hsame]
  · simp [hnode, hnode']

theorem place (h : Rewrites f fs fs') (q : Path) : fs'.place q = fs.place q := by
  unfold FileSystem.place
  simp only [h.canonicalize, h.directory_iff]

theorem isSome_node (h : Rewrites f fs fs') (q : Path) :
    fs'.node q = none ↔ fs.node q = none := by
  rcases h q with hsame | ⟨_, content, mode, content', mode', hnode, hnode'⟩
  · rw [hsame]
  · simp [hnode, hnode']

theorem not_symlink (h : Rewrites f fs fs') {q : Path} (hq : ∀ n ∈ fs.node q, ¬ n.IsSymlink) :
    ∀ n ∈ fs'.node q, ¬ n.IsSymlink := by
  intro n hn
  rcases h q with hsame | ⟨_, content, mode, content', mode', hnode, hnode'⟩
  · exact hq n (hsame ▸ hn)
  · rw [hnode', Option.mem_some_iff] at hn
    rw [← hn]
    exact id

theorem linkFree (h : Rewrites f fs fs') {q : Path} (hq : fs.LinkFree q) : fs'.LinkFree q :=
  fun p hp => h.not_symlink (hq p hp)

theorem contentAt (h : Rewrites f fs fs') {q : Path} (hq : fs.canonicalize q ≠ some f) :
    fs'.contentAt q = fs.contentAt q := by
  unfold FileSystem.contentAt
  rw [h.canonicalize]
  cases hc : fs.canonicalize q with
  | none => rfl
  | some c =>
    have hne : c ≠ f := fun heq => hq (heq ▸ hc)
    rw [Option.bind_some, Option.bind_some, h.node hne]

theorem perform_createDir (h : Rewrites f fs fs') (q : Path) :
    ((FsOp.createDir q).perform fs').1 = ((FsOp.createDir q).perform fs).1 ∧
      Rewrites f ((FsOp.createDir q).perform fs).2 ((FsOp.createDir q).perform fs').2 := by
  simp only [FsOp.perform, h.place, h.canonicalize]
  cases fs.place (trimmed q) with
  | none => exact ⟨rfl, h⟩
  | some c =>
    have hcan : (fs'.Placeable c ∧ fs'.node c = none ∧ fs'.Writable c.dropLast) ↔
        (fs.Placeable c ∧ fs.node c = none ∧ fs.Writable c.dropLast) := by
      have hwritable : fs'.Writable c.dropLast ↔ fs.Writable c.dropLast := by
        unfold FileSystem.Writable
        rcases h c.dropLast with hsame | ⟨_, content, mode, content', mode', hnode, hnode'⟩
        · rw [hsame]
        · simp [hnode, hnode']
      rw [h.isSome_node, hwritable]
      unfold Placeable
      rw [h.directory_iff, h.directory_iff]
    unfold create
    dsimp only
    by_cases hable : fs.Placeable c ∧ fs.node c = none ∧ fs.Writable c.dropLast
    · rw [dif_pos hable, dif_pos (hcan.mpr hable)]
      refine ⟨rfl, fun p => ?_⟩
      rw [node_put, node_put]
      split_ifs with hp
      · exact .inl rfl
      · exact h p
    · rw [dif_neg hable, dif_neg (mt hcan.mp hable)]
      exact ⟨rfl, h⟩

theorem perform_isDir (h : Rewrites f fs fs') (q : Path) :
    (FsOp.isDir q).perform fs' = (((FsOp.isDir q).perform fs).1, fs') := by
  simp only [FsOp.perform, h.canonicalize, h.directory_iff]

end Rewrites

/-! ## Programs beside a process that rewrites a file -/

/-- Whatever is rewritten when, `I` holds in front of every operation and `Q` of the result. -/
def beside (f : Path) (fuel : ℕ) (mayFail : PieceOp → Bool) (I : FileSystem → Prop)
    (Q : Except ε α → FileSystem → Prop) (p : FileProgram ε α) : FileSystem → Prop :=
  rely pieceDevice mayFail (Rewrites f) (fun _ _ => True) I Q (inPieces fuel p)

section

variable {f : Path} {fuel : ℕ} {mayFail : PieceOp → Bool} {I J : FileSystem → Prop}
  {fs : FileSystem} {Q Q' : Except ε α → FileSystem → Prop}

theorem beside_mono {p : FileProgram ε α} (h : beside f fuel mayFail I Q p fs)
    (hQ : ∀ r fs, Q r fs → Q' r fs) : beside f fuel mayFail I Q' p fs :=
  rely_mono h hQ

theorem beside_later {p : FileProgram ε α} {fs' : FileSystem} (h : beside f fuel mayFail I Q p fs)
    (hrewrites : Rewrites f fs fs') : beside f fuel mayFail I Q p fs' :=
  rely_later (R := Rewrites f) (fun _ _ _ => Rewrites.trans) h hrewrites

theorem beside_call (op : FsOp) {next : op.Reply → FileProgram ε α} (hop : ¬ op.IsRead)
    (h : ∀ fs', Rewrites f fs fs' → I fs' ∧
      beside f fuel mayFail I Q (next (op.perform fs').1) (op.perform fs').2 ∧
        beside f fuel mayFail I Q (next op.failed) fs') :
    beside f fuel mayFail I Q (.call op next) fs := by
  unfold beside inPieces
  rw [carryOut_of_whole hop]
  intro fs' hrewrites
  obtain ⟨hI, hnext, hfailed⟩ := h fs' hrewrites
  exact ⟨hI, fun _ => ⟨hnext, fun _ => hfailed⟩⟩

theorem beside_quiet (op : FsOp) {next : op.Reply → FileProgram ε α} (hop : ¬ op.IsRead)
    (hquiet : op.quiet) (h : ∀ fs', Rewrites f fs fs' → I fs' ∧
      ∀ reply, beside f fuel mayFail I Q (next reply) fs') :
    beside f fuel mayFail I Q (.call op next) fs := by
  apply beside_call _ hop
  intro fs' hrewrites
  obtain ⟨hI, hnext⟩ := h fs' hrewrites
  rw [perform_quiet hquiet]
  exact ⟨hI, hnext _, hnext _⟩

/-- The pieces of a file that is rewritten may be anything. -/
theorem beside_read {p : Path} {next : Option Bytes → FileProgram ε α}
    (h : ∀ fs', Rewrites f fs fs' → I fs' ∧ ∀ reply, beside f fuel mayFail I Q (next reply) fs') :
    beside f fuel mayFail I Q (.call (.read p) next) fs := by
  have hpieces : ∀ pieces sofar fs', Rewrites f fs fs' →
      rely pieceDevice mayFail (Rewrites f) (fun _ _ => True) I Q
        (readPieces p pieces sofar fun reply => inPieces fuel (next reply)) fs' := by
    intro pieces
    induction pieces with
    | zero => exact fun _ fs' hfs' => (h fs' hfs').2 none
    | succ pieces ih =>
      intro sofar fs' hfs' fs'' hfs''
      have hall := hfs'.trans hfs''
      obtain ⟨hI, hnext⟩ := h fs'' hall
      refine ⟨hI, fun _ => ⟨?_, fun _ => hnext none⟩⟩
      generalize (pieceDevice.perform (.piece p sofar.length) fs'').1 = reply
      match reply with
      | none => exact hnext none
      | some [] => exact hnext (some sofar)
      | some (b :: bytes) => exact ih _ fs'' hall
  exact hpieces fuel [] fs (.refl f fs)

theorem rely_readPieces {A : PieceOp → FileSystem → Prop} {p : Path} {content : Bytes}
    {next : Option Bytes → PieceProgram ε α}
    (hpiece : ∀ fs' offset, Rewrites f fs fs' → A (.piece p offset) fs' →
      ∀ found ∈ fs'.contentAt p, pieceAt found offset = pieceAt content offset)
    (h : ∀ fs', Rewrites f fs fs' → I fs' ∧ ∀ reply, reply = none ∨ reply = some content →
      rely pieceDevice mayFail (Rewrites f) A I Q (next reply) fs') (pieces : ℕ) :
    rely pieceDevice mayFail (Rewrites f) A I Q (readPieces p pieces [] next) fs := by
  have hpieces : ∀ pieces sofar fs', sofar <+: content → Rewrites f fs fs' →
      rely pieceDevice mayFail (Rewrites f) A I Q (readPieces p pieces sofar next) fs' := by
    intro pieces
    induction pieces with
    | zero => exact fun _ fs' _ hfs' => (h fs' hfs').2 none (.inl rfl)
    | succ pieces ih =>
      rintro sofar fs' ⟨rest, rfl⟩ hfs' fs'' hfs''
      have hall := hfs'.trans hfs''
      obtain ⟨hI, hnext⟩ := h fs'' hall
      refine ⟨hI, fun hA => ⟨?_, fun _ => hnext none (.inl rfl)⟩⟩
      have hfound := hpiece fs'' sofar.length hall hA
      have hreply : (pieceDevice.perform (.piece p sofar.length) fs'').1 =
          (fs''.contentAt p).map (pieceAt · sofar.length) := rfl
      rw [hreply]
      cases hcontent : fs''.contentAt p with
      | none => exact hnext none (.inl rfl)
      | some found =>
        have heq : pieceAt found sofar.length = rest.take bufferSize := by
          rw [hfound found hcontent, pieceAt, List.drop_left]
        rw [Option.map_some, heq]
        cases rest with
        | nil => exact hnext (some sofar) (.inr (by rw [List.append_nil]))
        | cons b rest =>
          refine ih _ fs'' ?_ hall
          exact List.prefix_append_right_inj _ |>.mpr (List.take_prefix _ _)
  exact hpieces pieces [] fs List.nil_prefix (.refl f fs)

theorem beside_read_elsewhere {p : Path} {content : Bytes} {next : Option Bytes → FileProgram ε α}
    (hp : fs.canonicalize p ≠ some f) (hcontent : fs.contentAt p = some content)
    (h : ∀ fs', Rewrites f fs fs' → I fs' ∧ ∀ reply, reply = none ∨ reply = some content →
      beside f fuel mayFail I Q (next reply) fs') :
    beside f fuel mayFail I Q (.call (.read p) next) fs := by
  apply rely_readPieces ?_ h
  intro fs' offset hfs' _ found hfound
  rw [hfs'.contentAt hp, hcontent, Option.mem_some_iff] at hfound
  rw [hfound]

theorem beside_bind {p : FileProgram ε α} {k : α → FileProgram ε β}
    {Q' : Except ε β → FileSystem → Prop}
    (h : beside f fuel mayFail I (fun r fs' => match r with
      | .ok a => beside f fuel mayFail I Q' (k a) fs'
      | .error e => Q' (.error e) fs') p fs) : beside f fuel mayFail I Q' (p >>= k) fs := by
  unfold beside
  rw [inPieces_bind]
  apply rely_bind (Rewrites.refl f)
  apply rely_mono h
  intro r fs' hr
  cases r <;> exact hr

theorem beside_attempt {p : FileProgram ε α} {Q' : Except ε (Except ε α) → FileSystem → Prop}
    (h : beside f fuel mayFail I (fun r fs' => Q' (.ok r) fs') p fs) :
    beside f fuel mayFail I Q' (attempt p) fs := by
  unfold beside
  rw [inPieces_attempt]
  exact rely_attempt h

section

variable {Q' : Except ε β → FileSystem → Prop} {e : ε}

theorem beside_done_bind {result : Except ε α} {k : α → FileProgram ε β}
    (hok : ∀ a, result = .ok a → beside f fuel mayFail I Q' (k a) fs)
    (herror : ∀ e fs', Rewrites f fs fs' → Q' (.error e) fs') :
    beside f fuel mayFail I Q' (done result >>= k) fs := by
  cases result with
  | ok a => exact hok a rfl
  | error e => exact herror e

theorem beside_require_bind {P : Prop} [Decidable P] {k : Unit → FileProgram ε β}
    (hyes : P → beside f fuel mayFail I Q' (k ()) fs)
    (hno : ∀ fs', Rewrites f fs fs' → Q' (.error e) fs') :
    beside f fuel mayFail I Q' (require e P >>= k) fs := by
  unfold require
  split_ifs with h
  · exact hyes h
  · exact hno

theorem beside_expect_done_bind {o : Option α} {k : α → FileProgram ε β}
    (hsome : ∀ a, o = some a → beside f fuel mayFail I Q' (k a) fs)
    (hnone : ∀ fs', Rewrites f fs fs' → Q' (.error e) fs') :
    beside f fuel mayFail I Q' (expect e (done (.ok o)) >>= k) fs := by
  cases o with
  | some a => exact hsome a rfl
  | none => exact hnone

end

/-! ## Programs that cannot tell -/

variable {p : FileProgram ε α}

theorem beside_readOnly (hp : p.ReadOnly device)
    (hkept : ∀ fs fs', J fs → Rewrites f fs fs' → J fs') (hI : ∀ fs, J fs → I fs) (h : J fs) :
    beside f fuel mayFail I (fun _ => J) p fs := by
  induction p generalizing fs with
  | done result => exact fun fs' => hkept fs fs' h
  | call op next ih =>
    have hnext : ∀ fs', Rewrites f fs fs' → I fs' ∧
        ∀ reply, beside f fuel mayFail I (fun _ => J) (next reply) fs' := by
      intro fs' hfs'
      have h' := hkept fs fs' h hfs'
      exact ⟨hI fs' h', fun reply => ih reply (hp.2 reply) h'⟩
    by_cases hread : op.IsRead
    · cases op with
      | read p => exact beside_read hnext
      | _ => exact absurd hread id
    · apply beside_quiet _ hread ?_ hnext
      have hreads := hp.1
      cases op <;> first | exact hreads | rfl

/-- A program whose operations do not see the file runs as it does alone. -/
theorem beside_of_wp {P : FsOp → Prop} (hp : p.Issues P) (hreads : ∀ op, P op → ¬ op.IsRead)
    (hsame : ∀ op fs fs', P op → Rewrites f fs fs' → (op.perform fs').1 = (op.perform fs).1 ∧
      Rewrites f (op.perform fs).2 (op.perform fs').2)
    (hI : ∀ fs fs', J fs → Rewrites f fs fs' → I fs')
    (hwp : Program.wp device (fun _ => true) J Q p fs) {fs' : FileSystem} (h : Rewrites f fs fs') :
    beside f fuel mayFail I (fun r fs' => ∃ fs₁, Q r fs₁ ∧ Rewrites f fs₁ fs') p fs' := by
  induction p generalizing fs fs' with
  | done result => exact fun fs'' h' => ⟨fs, hwp, h.trans h'⟩
  | call op next ih =>
    apply beside_call _ (hreads op hp.1)
    intro fs'' h'
    obtain ⟨hreply, hafter⟩ := hsame op fs fs'' hp.1 (h.trans h')
    refine ⟨hI fs fs'' hwp.1 (h.trans h'), ?_, ih _ (hp.2 _) (hwp.2.2 rfl) (h.trans h')⟩
    rw [hreply]
    exact ih _ (hp.2 _) hwp.2.1 hafter

theorem issues_createDirAll (depth : ℕ) (p : Path) : (createDirAll depth p : FileProgram ε Bool).Issues
    fun op => (∃ p, op = .createDir p) ∨ ∃ p, op = .isDir p := by
  have hlook : ∀ p, (isDir p : FileProgram ε Bool).Issues
      fun op => (∃ p, op = .createDir p) ∨ ∃ p, op = .isDir p :=
    fun p => ⟨.inr ⟨p, rfl⟩, fun _ => trivial⟩
  induction depth generalizing p with
  | zero => trivial
  | succ depth ih =>
    refine ⟨.inl ⟨p, rfl⟩, fun made => ?_⟩
    match made with
    | .ok () => trivial
    | .error .other => exact hlook p
    | .error .notFound =>
      dsimp only
      cases parent p with
      | none => trivial
      | some up =>
        apply Issues.bind (ih up)
        intro above
        cases above with
        | false => trivial
        | true =>
          refine ⟨.inl ⟨p, rfl⟩, fun made => ?_⟩
          match made with
          | .ok () => trivial
          | .error _ => exact hlook p

theorem beside_createDirAll {Q : Except ε Bool → FileSystem → Prop} {depth : ℕ} {p : Path}
    (hI : ∀ fs fs', J fs → Rewrites f fs fs' → I fs')
    (hwp : Program.wp device (fun _ => true) J Q (createDirAll depth p) fs) {fs' : FileSystem}
    (h : Rewrites f fs fs') : beside f fuel mayFail I
      (fun r fs' => ∃ fs₁, Q r fs₁ ∧ Rewrites f fs₁ fs') (createDirAll depth p) fs' := by
  apply beside_of_wp (issues_createDirAll depth p) ?_ ?_ hI hwp h
  · rintro op (⟨p, rfl⟩ | ⟨p, rfl⟩) <;> exact id
  · rintro op fs fs' (⟨p, rfl⟩ | ⟨p, rfl⟩) h
    · exact h.perform_createDir p
    · rw [h.perform_isDir p]
      exact ⟨rfl, h⟩

end

/-! ## Single operations -/

section

variable {f : Path} {fuel : ℕ} {mayFail : PieceOp → Bool} {I : FileSystem → Prop}
  {fs : FileSystem} {Q : Except ε β → FileSystem → Prop} {e : ε}

theorem beside_ensure_bind {p : FileProgram ε Bool} {k : Unit → FileProgram ε β}
    (h : beside f fuel mayFail I (fun r fs' => match r with
      | .ok true => beside f fuel mayFail I Q (k ()) fs'
      | .ok false => ∀ fs'', Rewrites f fs' fs'' → Q (.error e) fs''
      | .error e' => Q (.error e') fs') p fs) :
    beside f fuel mayFail I Q (ensure e p >>= k) fs := by
  apply beside_bind
  apply beside_bind
  apply beside_mono h
  intro r fs' hr
  match r with
  | .ok true => exact fun fs'' h' => beside_later hr h'
  | .ok false => exact hr
  | .error e' => exact hr

theorem beside_symlinkMetadata_bind {p : Path} {k : Metadata → FileProgram ε β}
    (hI : ∀ fs', Rewrites f fs fs' → I fs')
    (hsome : ∀ fs' metadata, Rewrites f fs fs' → fs'.metadataAt p = some metadata →
      beside f fuel mayFail I Q (k metadata) fs')
    (hnone : ∀ fs', Rewrites f fs fs' → Q (.error e) fs') :
    beside f fuel mayFail I Q (expect e (symlinkMetadata p) >>= k) fs := by
  apply beside_call (.symlinkMetadata p) id
  intro fs' h
  have herror : beside f fuel mayFail I Q (done (.error e)) fs' := fun fs'' h' => hnone fs'' (h.trans h')
  refine ⟨hI fs' h, ?_, herror⟩
  change beside f fuel mayFail I Q (expect e (done (.ok (fs'.metadataAt p))) >>= k) fs'
  cases hmetadata : fs'.metadataAt p with
  | none => exact herror
  | some metadata => exact hsome fs' metadata h hmetadata

theorem beside_canonicalize_bind {p : Path} {k : Path → FileProgram ε β}
    (hI : ∀ fs', Rewrites f fs fs' → I fs')
    (hsome : ∀ fs' q, Rewrites f fs fs' → fs'.canonicalize p = some q →
      beside f fuel mayFail I Q (k q) fs')
    (hnone : ∀ fs', Rewrites f fs fs' → Q (.error e) fs') :
    beside f fuel mayFail I Q (expect e (canonicalize p) >>= k) fs := by
  apply beside_call (.canonicalize p) id
  intro fs' h
  have herror : beside f fuel mayFail I Q (done (.error e)) fs' := fun fs'' h' => hnone fs'' (h.trans h')
  refine ⟨hI fs' h, ?_, herror⟩
  change beside f fuel mayFail I Q (expect e (done (.ok (fs'.canonicalize p))) >>= k) fs'
  cases hq : fs'.canonicalize p with
  | none => exact herror
  | some q => exact hsome fs' q h hq

theorem beside_read_bind {p : Path} {content : Bytes} {k : Bytes → FileProgram ε β}
    (hp : fs.canonicalize p ≠ some f) (hcontent : fs.contentAt p = some content)
    (hI : ∀ fs', Rewrites f fs fs' → I fs')
    (hsome : ∀ fs', Rewrites f fs fs' → beside f fuel mayFail I Q (k content) fs')
    (hnone : ∀ fs', Rewrites f fs fs' → Q (.error e) fs') :
    beside f fuel mayFail I Q (expect e (read p) >>= k) fs := by
  apply beside_read_elsewhere hp hcontent
  intro fs' h
  refine ⟨hI fs' h, ?_⟩
  rintro reply (rfl | rfl)
  · exact fun fs'' h' => hnone fs'' (h.trans h')
  · exact hsome fs' h

end

/-! ## Programs that keep an assertion -/

/-- The assertion is kept by the rewriting and by changes below the path, where no link is. -/
structure Steady (f t : Path) (I J : FileSystem → Prop) : Prop where
  rewrites : ∀ fs fs', J fs → Rewrites f fs fs' → J fs'
  below : ∀ fs fs', J fs → Below t fs fs' → J fs'
  linkFree : ∀ fs, J fs → ∀ q, t <+: q → fs.LinkFree q
  holds : ∀ fs, J fs → I fs

def Kept (f : Path) (fuel : ℕ) (mayFail : PieceOp → Bool) (I J : FileSystem → Prop)
    (p : FileProgram ε α) : Prop :=
  ∀ fs, J fs → beside f fuel mayFail I (fun _ => J) p fs

section

variable {f t : Path} {fuel : ℕ} {mayFail : PieceOp → Bool} {I J : FileSystem → Prop}
  {p : FileProgram ε α}

theorem Kept.bind {k : α → FileProgram ε β} (hp : Kept f fuel mayFail I J p)
    (hk : ∀ a, Kept f fuel mayFail I J (k a)) : Kept f fuel mayFail I J (p >>= k) := by
  intro fs h
  apply beside_bind
  apply beside_mono (hp fs h)
  intro r fs' h'
  cases r with
  | ok a => exact hk a fs' h'
  | error e => exact h'

namespace Steady

variable (hsteady : Steady f t I J)

include hsteady

theorem done (result : Except ε α) : Kept f fuel mayFail I J (.done result : FileProgram ε α) :=
  fun fs h fs' => hsteady.rewrites fs fs' h

theorem ensure {e : ε} {p : FileProgram ε Bool} (hp : Kept f fuel mayFail I J p) :
    Kept f fuel mayFail I J (ensure e p) := by
  apply Kept.bind hp
  intro b
  cases b <;> exact hsteady.done _

theorem require (e : ε) (P : Prop) [Decidable P] :
    Kept f fuel mayFail I J (require e P : FileProgram ε Unit) := by
  unfold Program.require
  split_ifs <;> exact hsteady.done _

theorem entry {op : FsOp} {next : op.Reply → FileProgram ε α} {q : Path} (hentry : op.entry = some q)
    (ht : t <+: q) (hnames : ∀ name ∈ q, Ordinary name)
    (hnext : ∀ reply, Kept f fuel mayFail I J (next reply)) :
    Kept f fuel mayFail I J (.call op next) := by
  intro fs h
  have hop : ¬ op.IsRead := by
    intro hread
    cases op <;> first | exact hread | simp [FsOp.entry] at hentry
  apply beside_call _ hop
  intro fs' hfs'
  have h' := hsteady.rewrites fs fs' h hfs'
  have hbelow := below_perform hentry ht hnames (hsteady.linkFree fs' h' q ht)
  exact ⟨hsteady.holds fs' h', hnext _ _ (hsteady.below fs' _ h' hbelow), hnext _ _ h'⟩

theorem quiet {op : FsOp} {next : op.Reply → FileProgram ε α} (hop : op.quiet)
    (hnext : ∀ reply, Kept f fuel mayFail I J (next reply)) :
    Kept f fuel mayFail I J (.call op next) := by
  intro fs h
  have hrest : ∀ fs', Rewrites f fs fs' → I fs' ∧
      ∀ reply, beside f fuel mayFail I (fun _ => J) (next reply) fs' := by
    intro fs' hfs'
    have h' := hsteady.rewrites fs fs' h hfs'
    exact ⟨hsteady.holds fs' h', fun reply => hnext reply fs' h'⟩
  by_cases hread : op.IsRead
  · cases op with
    | read p => exact beside_read hrest
    | _ => exact absurd hread id
  · exact beside_quiet _ hread hop hrest

theorem confined (hp : Confined t p) (hreads : p.Issues fun op => ¬ op.IsRead) :
    Kept f fuel mayFail I J p := by
  induction p with
  | done result => exact hsteady.done result
  | call op next ih =>
    obtain ⟨hop, hnext, hfailed⟩ := hp
    intro fs h
    apply beside_call _ hreads.1
    intro fs' hfs'
    have h' := hsteady.rewrites fs fs' h hfs'
    refine ⟨hsteady.holds fs' h', ?_, ih _ hfailed (hreads.2 _) fs' h'⟩
    apply ih _ (hnext fs') (hreads.2 _)
    rcases hop with hquiet | ⟨p, hentry, ht, hnames⟩
    · rw [perform_quiet hquiet]
      exact h'
    · exact hsteady.below fs' _ h' (below_perform hentry ht hnames (hsteady.linkFree fs' h' p ht))

end Steady

theorem issues_removeEntry : ∀ depth (p : Path),
    (removeEntry depth p : FileProgram ε Bool).Issues fun op => ¬ op.IsRead := by
  intro depth
  induction depth with
  | zero => exact fun _ => trivial
  | succ depth ih =>
    intro p
    refine ⟨id, fun metadata => ?_⟩
    cases metadata with
    | none => trivial
    | some metadata =>
      change (ite _ _ _ : FileProgram ε Bool).Issues _
      split_ifs
      · refine ⟨id, fun names => ?_⟩
        cases names with
        | none => trivial
        | some names =>
          have hentries : (removeEntries (removeEntry depth) p names : FileProgram ε Bool).Issues
              fun op => ¬ op.IsRead := by
            induction names with
            | nil => trivial
            | cons name names ihnames =>
              apply Issues.bind (ih _)
              intro removed
              cases removed with
              | false => trivial
              | true => exact ihnames
          apply Issues.bind hentries
          intro removed
          cases removed with
          | false => trivial
          | true => exact ⟨id, fun _ => trivial⟩
      · exact ⟨id, fun _ => trivial⟩

end

end Files
