import CertaelAgent.Foundation.Program

/-!
# Streams that arrive in chunks

A reader hands out its bytes in chunks of its own choosing: one call delivers at most what is left
of the current chunk, and a call that delivers nothing says that the stream has ended. Filling a
buffer exactly repeats such calls until the buffer is full.

How the bytes are cut does not matter: from a reader without empty chunks, filling a buffer is
splitting the concatenation.
-/

namespace ByteStream

variable {α : Type}

abbrev Chunks (α : Type) := List (List α)

/-- Every call delivers something until the bytes run out. -/
def Delivers (chunks : Chunks α) : Prop := ∀ chunk ∈ chunks, chunk ≠ []

/-- What is left of a chunk stays in front of the others. -/
def putBack (left : List α) (chunks : Chunks α) : Chunks α :=
  if left.isEmpty then chunks else left :: chunks

@[simp] theorem flatten_putBack (left : List α) (chunks : Chunks α) :
    (putBack left chunks).flatten = left ++ chunks.flatten := by
  cases left <;> simp [putBack]

theorem Delivers.putBack {chunks : Chunks α} (h : Delivers chunks) (left : List α) :
    Delivers (putBack left chunks) := by
  cases left with
  | nil => exact h
  | cons a left =>
    intro chunk hchunk
    rcases List.mem_cons.mp hchunk with rfl | hmem
    · simp
    · exact h chunk hmem

/-- Fills a buffer of `size`; without enough bytes there is no result, and they are gone. -/
def readExact : ℕ → Chunks α → Option (List α) × Chunks α
  | 0, chunks => (some [], chunks)
  | _ + 1, [] => (none, [])
  | _ + 1, [] :: chunks => (none, chunks)
  | size + 1, (a :: chunk) :: chunks =>
    if size + 1 ≤ (a :: chunk).length then
      (some ((a :: chunk).take (size + 1)), putBack ((a :: chunk).drop (size + 1)) chunks)
    else (readExact (size + 1 - (a :: chunk).length) chunks).map (Option.map ((a :: chunk) ++ ·)) id
termination_by structural _ chunks => chunks

theorem flatten_of_readExact {size : ℕ} {chunks : Chunks α} {bytes : List α} {rest : Chunks α}
    (h : readExact size chunks = (some bytes, rest)) :
    chunks.flatten = bytes ++ rest.flatten ∧ bytes.length = size := by
  fun_induction readExact size chunks generalizing bytes with
  | case1 chunks =>
    obtain ⟨hbytes, rfl⟩ := Prod.mk.inj h
    obtain rfl := Option.some.inj hbytes
    simp
  | case2 => simp at h
  | case3 => simp at h
  | case4 size a chunk chunks hle =>
    obtain ⟨hbytes, rfl⟩ := Prod.mk.inj h
    obtain rfl := Option.some.inj hbytes
    constructor
    · rw [flatten_putBack, ← List.append_assoc, List.take_append_drop, List.flatten_cons]
    · rw [List.length_take]
      omega
  | case5 size a chunk chunks hlong ih =>
    obtain ⟨hmap, rfl⟩ := Prod.mk.inj h
    obtain ⟨tail, htail, rfl⟩ := Option.map_eq_some_iff.mp hmap
    obtain ⟨hflatten, hlength⟩ := ih (Prod.ext htail rfl)
    constructor
    · rw [List.flatten_cons, hflatten, List.append_assoc]
    · rw [List.length_append]
      omega

/-- With enough bytes left, a delivering reader fills the buffer and goes on delivering. -/
theorem readExact_of_le {size : ℕ} {chunks : Chunks α} (hdelivers : Delivers chunks)
    (hle : size ≤ chunks.flatten.length) :
    ∃ rest, readExact size chunks = (some (chunks.flatten.take size), rest) ∧ Delivers rest ∧
      rest.flatten = chunks.flatten.drop size := by
  fun_induction readExact size chunks with
  | case1 chunks => exact ⟨chunks, by simp, hdelivers, by simp⟩
  | case2 size => simp at hle
  | case3 size chunks => exact absurd rfl (hdelivers [] (List.mem_cons_self ..))
  | case4 size a chunk chunks hfits =>
    have htail : Delivers chunks := fun c hc => hdelivers c (List.mem_cons_of_mem _ hc)
    refine ⟨putBack ((a :: chunk).drop (size + 1)) chunks, ?_, htail.putBack _, ?_⟩
    · rw [List.flatten_cons, List.take_append_of_le_length hfits]
    · rw [flatten_putBack, List.flatten_cons, List.drop_append_of_le_length hfits]
  | case5 size a chunk chunks hlong ih =>
    have hmore : (a :: chunk).length ≤ size + 1 := by omega
    have hleft : size + 1 - (a :: chunk).length ≤ chunks.flatten.length := by
      rw [List.flatten_cons, List.length_append] at hle
      omega
    obtain ⟨rest, hread, hrest, hflatten⟩ :=
      ih (fun c hc => hdelivers c (List.mem_cons_of_mem _ hc)) hleft
    refine ⟨rest, ?_, hrest, ?_⟩
    · rw [hread, List.flatten_cons, List.take_append, List.take_of_length_le hmore]
      rfl
    · rw [hflatten, List.flatten_cons, List.drop_append, List.drop_of_length_le hmore,
        List.nil_append]

theorem readExact_of_lt {size : ℕ} {chunks : Chunks α} (hdelivers : Delivers chunks)
    (hlt : chunks.flatten.length < size) : readExact size chunks = (none, []) := by
  fun_induction readExact size chunks with
  | case1 chunks => omega
  | case2 size => rfl
  | case3 size chunks => exact absurd rfl (hdelivers [] (List.mem_cons_self ..))
  | case4 size a chunk chunks hfits =>
    rw [List.flatten_cons, List.length_append] at hlt
    omega
  | case5 size a chunk chunks hlong ih =>
    have hleft : chunks.flatten.length < size + 1 - (a :: chunk).length := by
      rw [List.flatten_cons, List.length_append] at hlt
      omega
    rw [ih (fun c hc => hdelivers c (List.mem_cons_of_mem _ hc)) hleft]
    rfl

/-- The only thing a program asks of a reader: a new buffer of this size, filled. -/
structure Fill where
  size : ℕ
deriving DecidableEq, Repr

/-- A reader as a device. -/
def device (α : Type) : Device Fill (fun _ => Option (List α)) (Chunks α) where
  perform op chunks := readExact op.size chunks
  failed _ := none
  reads _ := false
  perform_reads _ _ h := absurd h Bool.false_ne_true

end ByteStream
