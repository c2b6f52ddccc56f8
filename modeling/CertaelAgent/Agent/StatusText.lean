import CertaelAgent.Foundation.JsonText
import CertaelAgent.Runtime.Serve

/-!
# The text of a status

A status file holds one JSON object: what the runtime publishes, with the time of the publication.
The reader is `serde_json`; of it only this is used, that it takes back what the writer makes.
-/

namespace CertaelAgent.Agent

open ProtoWire Protocol JsonText

/-- `RuntimeStatus` as it is written. -/
structure StatusRecord extends Runtime.RuntimeStatus where
  updatedAtUnix : Int64
deriving DecidableEq, Repr

namespace StatusRecord

/-- The fields in the order of their declaration, without blanks. -/
def text (status : StatusRecord) : List Char :=
  "\x7b\"format_version\":".toList ++ number status.formatVersion.toNat ++
    (",\"registration_id\":".toList ++ literal status.registrationId ++
      (",\"game_id\":".toList ++ literal status.gameId ++
        (",\"state\":".toList ++ literal status.state ++
          (",\"public_reason\":".toList ++ orNull literal status.publicReason ++
            (",\"updated_at_unix\":".toList ++ number status.updatedAtUnix.toInt ++
              (",\"launch_attempt_id\":".toList ++ orNull literal status.launchAttemptId ++
                (",\"milestone_index\":".toList ++
                  orNull number (status.milestoneIndex.map fun index => (index.toNat : ℤ)) ++
                  (",\"milestone_total\":".toList ++
                    orNull number (status.milestoneTotal.map fun total => (total.toNat : ℤ)) ++
                    "\x7d".toList))))))))

/-- `serde_json::to_vec`. -/
def toVec (status : StatusRecord) : Bytes := Field.utf8 (String.ofList status.text)

end StatusRecord

/-- `serde_json::from_slice`. -/
class StatusJson where
  fromSlice : Bytes → Option StatusRecord
  fromSlice_toVec : ∀ status : StatusRecord, fromSlice status.toVec = some status

/-! ## A strict reader -/

/-- A number of 32 bits. -/
def toU32 (value : ℤ) : Option UInt32 :=
  if 0 ≤ value ∧ value < 2 ^ 32 then some (UInt32.ofNat value.toNat) else none

def readStatus (chars : List Char) : Option StatusRecord := do
  let chars ← expectText "\x7b\"format_version\":".toList chars
  let (formatVersion, chars) ← readNumber chars
  let chars ← expectText ",\"registration_id\":".toList chars
  let (registrationId, chars) ← readLiteral chars
  let chars ← expectText ",\"game_id\":".toList chars
  let (gameId, chars) ← readLiteral chars
  let chars ← expectText ",\"state\":".toList chars
  let (state, chars) ← readLiteral chars
  let chars ← expectText ",\"public_reason\":".toList chars
  let (publicReason, chars) ← readOrNull readLiteral chars
  let chars ← expectText ",\"updated_at_unix\":".toList chars
  let (updatedAtUnix, chars) ← readNumber chars
  let chars ← expectText ",\"launch_attempt_id\":".toList chars
  let (launchAttemptId, chars) ← readOrNull readLiteral chars
  let chars ← expectText ",\"milestone_index\":".toList chars
  let (milestoneIndex, chars) ← readOrNull readNumber chars
  let chars ← expectText ",\"milestone_total\":".toList chars
  let (milestoneTotal, chars) ← readOrNull readNumber chars
  let _ ← expectText "\x7d".toList chars
  let formatVersion ← toU32 formatVersion
  return {
    formatVersion := formatVersion
    registrationId := registrationId
    gameId := gameId
    state := state
    publicReason := publicReason
    launchAttemptId := launchAttemptId
    milestoneIndex := milestoneIndex.bind toU32
    milestoneTotal := milestoneTotal.bind toU32
    updatedAtUnix := Int64.ofInt updatedAtUnix }

theorem toU32_toNat (value : UInt32) : toU32 value.toNat = some value := by
  have hlt : (value.toNat : ℤ) < 2 ^ 32 := by exact_mod_cast value.toNat_lt
  have hnonneg : (0 : ℤ) ≤ value.toNat := Int.natCast_nonneg _
  rw [toU32, if_pos ⟨hnonneg, hlt⟩, Int.toNat_natCast, UInt32.ofNat_toNat]

section

variable {β : Type}

theorem readOrNull_literal_bind (o : Option String) (rest : List Char)
    (f : Option String × List Char → Option β) :
    (readOrNull readLiteral (orNull literal o ++ rest) >>= f) = f (o, rest) := by
  rw [readOrNull_orNull (fun value => readLiteral_literal value rest)
    fun value => not_null_literal value rest]
  rfl

theorem readOrNull_number_bind (o : Option ℤ) {rest : List Char} (hrest : NumberEnds rest)
    (f : Option ℤ × List Char → Option β) :
    (readOrNull readNumber (orNull number o ++ rest) >>= f) = f (o, rest) := by
  rw [readOrNull_orNull (fun value => readNumber_number value hrest)
    fun value => not_null_number value rest]
  rfl

end

theorem numberEnds_of_head {text : List Char} {c : Char} (htext : text.head? = some c)
    (hc : c.isDigit = false) : NumberEnds text := by
  intro found hfound
  rw [htext] at hfound
  obtain rfl := Option.mem_some.mp hfound
  exact hc

theorem numberEnds_append {text : List Char} {c : Char} (htext : text.head? = some c)
    (hc : c.isDigit = false) (rest : List Char) : NumberEnds (text ++ rest) := by
  apply numberEnds_of_head (c := c) _ hc
  rw [List.head?_append, htext]
  rfl

theorem bind_toU32 (o : Option UInt32) : (o.map fun value => (value.toNat : ℤ)).bind toU32 = o := by
  cases o with
  | none => rfl
  | some value => rw [Option.map_some, Option.bind_some, toU32_toNat]

theorem readStatus_text (status : StatusRecord) : readStatus status.text = some status := by
  have hcomma : (',').isDigit = false := by decide
  have hbrace : NumberEnds "\x7d".toList := numberEnds_of_head (c := '\x7d') rfl (by decide)
  have hend : expectText "\x7d".toList "\x7d".toList = some [] := by decide
  unfold readStatus StatusRecord.text
  simp only [List.append_assoc]
  rw [expectText_bind, readNumber_bind _ (numberEnds_append rfl hcomma _)]
  dsimp only
  rw [expectText_bind, readLiteral_bind]
  dsimp only
  rw [expectText_bind, readLiteral_bind]
  dsimp only
  rw [expectText_bind, readLiteral_bind]
  dsimp only
  rw [expectText_bind, readOrNull_literal_bind]
  dsimp only
  rw [expectText_bind, readNumber_bind _ (numberEnds_append rfl hcomma _)]
  dsimp only
  rw [expectText_bind, readOrNull_literal_bind]
  dsimp only
  rw [expectText_bind, readOrNull_number_bind _ (numberEnds_append rfl hcomma _)]
  dsimp only
  rw [expectText_bind, readOrNull_number_bind _ hbrace]
  dsimp only
  rw [hend, Option.bind_eq_bind, Option.bind_some, toU32_toNat, bind_toU32, bind_toU32,
    Int64.ofInt_toInt]
  rfl

/-- The reader of exactly those texts that are written. -/
@[reducible] def strictStatusJson : StatusJson where
  fromSlice bytes := (Field.fromUtf8 bytes).bind fun text => readStatus text.toList
  fromSlice_toVec status := by
    rw [StatusRecord.toVec, Field.fromUtf8_utf8, Option.bind_some, String.toList_ofList,
      readStatus_text]

end CertaelAgent.Agent
