import CertaelAgent.Protocol.Compatibility

/-!
# Decisions about compatibility

Whether a version of a product may start new protected sessions. The manifest has passed its
validator, so there is at most one rule for a product and the versions in it can be parsed.
-/

namespace CertaelAgent.Protocol

open ProtoWire

inductive CompatibilityStateV1
  | supported
  | deprecated
  | updateRequired
  | revoked
  | unknown
  | indeterminate
deriving DecidableEq, Repr

structure CompatibilityDecisionV1 where
  state : CompatibilityStateV1
  publicReason : String
  recommendedVersion : Option String
  manifestRevision : UInt64
deriving DecidableEq, Repr

def CompatibilityDecisionV1.allowsNewProtectedSession (decision : CompatibilityDecisionV1) : Bool :=
  decision.state = .supported ∨ decision.state = .deprecated

/-- The number of a product on the wire. -/
def CertaelProductV1.value : CertaelProductV1 → Int32
  | .unspecified => 0
  | .core => 1
  | .agent => 2
  | .godotAdapter => 3
  | .unityAdapter => 4
  | .unrealAdapter => 5
  | .dotNetServerSdk => 6
  | .nativeServerSdk => 7

/-- The manifest is in force. -/
def CompatibilityManifestClaimsV1.Current (manifest : CompatibilityManifestClaimsV1)
    (nowUnix : Int64) : Prop :=
  manifest.issuedAtUnix ≤ nowUnix ∧ nowUnix < manifest.expiresAtUnix

instance (manifest : CompatibilityManifestClaimsV1) (nowUnix : Int64) :
    Decidable (manifest.Current nowUnix) := inferInstanceAs (Decidable (_ ∧ _))

/-- The revocation withdraws exactly this version, and is in force. -/
def CompatibilityRevocationV1.Applies (revocation : CompatibilityRevocationV1)
    (product : CertaelProductV1) (currentVersion : String) (nowUnix : Int64) : Prop :=
  revocation.product = product.value ∧ revocation.version = currentVersion ∧
    revocation.effectiveAtUnix ≤ nowUnix

instance (revocation : CompatibilityRevocationV1) (product : CertaelProductV1)
    (currentVersion : String) (nowUnix : Int64) :
    Decidable (revocation.Applies product currentVersion nowUnix) :=
  inferInstanceAs (Decidable (_ ∧ _ ∧ _))

def ruleFor (manifest : CompatibilityManifestClaimsV1) (product : CertaelProductV1) :
    Option CompatibilityProductRuleV1 :=
  manifest.products.find? fun rule => rule.product == product.value

section

variable [Crates]

/-- What a rule says of a version; there is nothing where one of the two `expect`s panics. -/
def evaluateRule (rule : CompatibilityProductRuleV1) (revision : UInt64)
    (current : Crates.Version) (protocolVersion : UInt32) : Option CompatibilityDecisionV1 :=
  if protocolVersion < rule.minimumProtocolVersion then
    some ⟨.updateRequired, "PROTOCOL_UPDATE_REQUIRED", some rule.recommendedVersion, revision⟩
  else if rule.maximumProtocolVersion < protocolVersion then
    some ⟨.unknown, "PROTOCOL_TOO_NEW", some rule.recommendedVersion, revision⟩
  else do
    let minimum ← Crates.parseVersion rule.minimumSupportedVersion
    let recommended ← Crates.parseVersion rule.recommendedVersion
    if current < minimum then
      some ⟨.updateRequired, "VERSION_UPDATE_REQUIRED", some rule.recommendedVersion, revision⟩
    else if current < recommended then
      some ⟨.deprecated, "VERSION_DEPRECATED", some rule.recommendedVersion, revision⟩
    else some ⟨.supported, "SUPPORTED", some rule.recommendedVersion, revision⟩

/-- There is no decision where the program panics. -/
def evaluateCompatibility (manifest : Option CompatibilityManifestClaimsV1)
    (product : CertaelProductV1) (currentVersion : String) (protocolVersion : UInt32)
    (nowUnix : Int64) : Option CompatibilityDecisionV1 :=
  match manifest.filter fun value => value.Current nowUnix with
  | none =>
    some ⟨.indeterminate, "COMPATIBILITY_INDETERMINATE", none, manifest.elim 0 (·.revision)⟩
  | some manifest =>
    match Crates.parseVersion currentVersion with
    | none => some ⟨.unknown, "VERSION_UNKNOWN", none, manifest.revision⟩
    | some current =>
      if manifest.revocations.any fun revocation =>
          revocation.Applies product currentVersion nowUnix then
        some ⟨.revoked, "VERSION_REVOKED",
          (ruleFor manifest product).map (·.recommendedVersion), manifest.revision⟩
      else match ruleFor manifest product with
        | none => some ⟨.unknown, "PRODUCT_UNKNOWN", none, manifest.revision⟩
        | some rule => evaluateRule rule manifest.revision current protocolVersion

/-! ## What the validator establishes -/

/-- The versions of a rule can be parsed, and what is recommended is supported. -/
def CompatibilityProductRuleV1.Parsed (rule : CompatibilityProductRuleV1) : Prop :=
  ∃ minimum recommended, Crates.parseVersion rule.minimumSupportedVersion = some minimum ∧
    Crates.parseVersion rule.recommendedVersion = some recommended ∧ minimum ≤ recommended

theorem validateProducts_ok {rules : List CompatibilityProductRuleV1} :
    ∀ {seen : List CertaelProductV1}, validateProducts seen rules = .ok () →
      (∀ rule ∈ rules, rule.Parsed ∧
        ∃ product ∉ seen, CertaelProductV1.tryFrom rule.product = some product) ∧
      (rules.map (·.product)).Nodup := by
  induction rules with
  | nil => exact fun _ => ⟨by simp, List.nodup_nil⟩
  | cons rule rules ih =>
    intro seen h
    obtain ⟨product, hproduct, h⟩ := Except.bind_eq_ok_iff.mp h
    split_ifs at h with hunspecified
    obtain ⟨minimum, hminimum, h⟩ := Except.bind_eq_ok_iff.mp h
    obtain ⟨recommended, hrecommended, h⟩ := Except.bind_eq_ok_iff.mp h
    rw [Except.ofOption_eq_ok_iff] at hproduct hminimum hrecommended
    split_ifs at h with hbad
    simp only [not_or, not_lt] at hbad
    obtain ⟨hrules, hnodup⟩ := ih h
    constructor
    · intro other hother
      rcases List.mem_cons.mp hother with rfl | hmem
      · exact ⟨⟨minimum, recommended, hminimum, hrecommended, hbad.2.1⟩, product, hbad.1, hproduct⟩
      · obtain ⟨hparsed, otherProduct, hnot, hother⟩ := hrules other hmem
        exact ⟨hparsed, otherProduct, fun hin => hnot (List.mem_cons_of_mem _ hin), hother⟩
    · rw [List.map_cons, List.nodup_cons]
      refine ⟨?_, hnodup⟩
      intro hmem
      obtain ⟨other, hother, hsame⟩ := List.mem_map.mp hmem
      obtain ⟨-, otherProduct, hnot, htry⟩ := hrules other hother
      rw [hsame, hproduct] at htry
      exact hnot (Option.some.inj htry ▸ List.mem_cons_self)

/-- A manifest that some call of the validator has accepted. -/
def CompatibilityManifestClaimsV1.Accepted (manifest : CompatibilityManifestClaimsV1) : Prop :=
  ∃ nowUnix, validateCompatibilityManifest manifest nowUnix = .ok ()

theorem CompatibilityManifestClaimsV1.Accepted.products {manifest : CompatibilityManifestClaimsV1}
    (h : manifest.Accepted) :
    (∀ rule ∈ manifest.products, rule.Parsed) ∧ (manifest.products.map (·.product)).Nodup := by
  obtain ⟨nowUnix, h⟩ := h
  unfold validateCompatibilityManifest at h
  split_ifs at h
  obtain ⟨_, hproducts, -⟩ := Except.bind_eq_ok_iff.mp h
  obtain ⟨hrules, hnodup⟩ := validateProducts_ok hproducts
  exact ⟨fun rule hrule => (hrules rule hrule).1, hnodup⟩

variable {manifest : CompatibilityManifestClaimsV1} {product : CertaelProductV1}
  {currentVersion : String} {protocolVersion : UInt32} {nowUnix : Int64}

omit [Crates] in
theorem ruleFor_eq_some_iff (hnodup : (manifest.products.map (·.product)).Nodup)
    {rule : CompatibilityProductRuleV1} : ruleFor manifest product = some rule ↔
      rule ∈ manifest.products ∧ rule.product = product.value := by
  constructor
  · intro h
    exact ⟨List.mem_of_find?_eq_some h, by simpa using List.find?_some h⟩
  · rintro ⟨hmem, hproduct⟩
    obtain ⟨found, hfound⟩ : ∃ found, ruleFor manifest product = some found :=
      Option.isSome_iff_exists.mp (List.find?_isSome.mpr ⟨rule, hmem, by simpa using hproduct⟩)
    have hvalue : found.product = product.value := by simpa using List.find?_some hfound
    rw [hfound, List.inj_on_of_nodup_map hnodup (List.mem_of_find?_eq_some hfound) hmem
      (hvalue.trans hproduct.symm)]

/-! ## Decisions -/

/-- The decision is there and allows new protected sessions. -/
def Allows (manifest : CompatibilityManifestClaimsV1) (product : CertaelProductV1)
    (currentVersion : String) (protocolVersion : UInt32) (nowUnix : Int64) : Prop :=
  ∃ decision, evaluateCompatibility (some manifest) product currentVersion protocolVersion nowUnix =
    some decision ∧ decision.allowsNewProtectedSession = true

/-- Some revocation of exactly this version is in force. -/
def Revoked (manifest : CompatibilityManifestClaimsV1) (product : CertaelProductV1)
    (currentVersion : String) (nowUnix : Int64) : Prop :=
  ∃ revocation ∈ manifest.revocations, revocation.Applies product currentVersion nowUnix

/-- The rule supports the version over the protocol. -/
def CompatibilityProductRuleV1.Supports (rule : CompatibilityProductRuleV1)
    (current : Crates.Version) (protocolVersion : UInt32) : Prop :=
  rule.minimumProtocolVersion ≤ protocolVersion ∧ protocolVersion ≤ rule.maximumProtocolVersion ∧
    ∃ minimum, Crates.parseVersion rule.minimumSupportedVersion = some minimum ∧ minimum ≤ current

theorem evaluateRule_of_parsed {rule : CompatibilityProductRuleV1} (h : rule.Parsed)
    (revision : UInt64) (current : Crates.Version) (protocolVersion : UInt32) :
    ∃ decision, evaluateRule rule revision current protocolVersion = some decision ∧
      (decision.allowsNewProtectedSession = true ↔ rule.Supports current protocolVersion) := by
  obtain ⟨minimum, recommended, hminimum, hrecommended, -⟩ := h
  have hsupports : rule.Supports current protocolVersion ↔
      rule.minimumProtocolVersion ≤ protocolVersion ∧
        protocolVersion ≤ rule.maximumProtocolVersion ∧ minimum ≤ current := by
    simp [CompatibilityProductRuleV1.Supports, hminimum]
  unfold evaluateRule
  rw [hsupports]
  split_ifs with hlow hhigh
  · refine ⟨_, rfl, ?_⟩
    simp [CompatibilityDecisionV1.allowsNewProtectedSession, UInt32.not_le.mpr hlow]
  · refine ⟨_, rfl, ?_⟩
    simp [CompatibilityDecisionV1.allowsNewProtectedSession, UInt32.not_le.mpr hhigh]
  · rw [UInt32.not_lt] at hlow hhigh
    rw [hminimum, hrecommended]
    simp only [Option.bind_eq_bind, Option.bind_some]
    split_ifs with hold holder
    · refine ⟨_, rfl, ?_⟩
      simp [CompatibilityDecisionV1.allowsNewProtectedSession, not_le.mpr hold]
    · refine ⟨_, rfl, ?_⟩
      simp [CompatibilityDecisionV1.allowsNewProtectedSession, hlow, hhigh, not_lt.mp hold]
    · refine ⟨_, rfl, ?_⟩
      simp [CompatibilityDecisionV1.allowsNewProtectedSession, hlow, hhigh, not_lt.mp hold]

theorem evaluate_of_accepted (h : manifest.Accepted) (product : CertaelProductV1)
    (currentVersion : String) (protocolVersion : UInt32) (nowUnix : Int64) :
    ∃ decision, evaluateCompatibility (some manifest) product currentVersion protocolVersion nowUnix =
        some decision ∧
      (decision.allowsNewProtectedSession = true ↔ manifest.Current nowUnix ∧
        ¬ Revoked manifest product currentVersion nowUnix ∧
        ∃ current, Crates.parseVersion currentVersion = some current ∧
          ∃ rule ∈ manifest.products, rule.product = product.value ∧
            rule.Supports current protocolVersion) := by
  obtain ⟨hparsed, hnodup⟩ := h.products
  unfold evaluateCompatibility
  by_cases hcurrent : manifest.Current nowUnix
  · have hfilter : (some manifest).filter (fun value => value.Current nowUnix) = some manifest := by
      simp [hcurrent]
    rw [hfilter]
    cases hversion : Crates.parseVersion currentVersion with
    | none =>
      refine ⟨_, rfl, ?_⟩
      simp [CompatibilityDecisionV1.allowsNewProtectedSession]
    | some current =>
      dsimp only
      split_ifs with hrevoked
      · refine ⟨_, rfl, ?_⟩
        have hrevoked : Revoked manifest product currentVersion nowUnix := by
          simpa [Revoked] using hrevoked
        simp [CompatibilityDecisionV1.allowsNewProtectedSession, hrevoked]
      · have hrevoked : ¬ Revoked manifest product currentVersion nowUnix := by
          simpa [Revoked] using hrevoked
        cases hrule : ruleFor manifest product with
        | none =>
          refine ⟨_, rfl, ?_⟩
          have hnone : ∀ rule ∈ manifest.products, rule.product ≠ product.value := by
            intro rule hmem
            simpa using List.find?_eq_none.mp hrule rule hmem
          simp only [CompatibilityDecisionV1.allowsNewProtectedSession]
          constructor
          · intro hfalse
            simp at hfalse
          · rintro ⟨-, -, -, -, rule, hmem, hproduct, -⟩
            exact absurd hproduct (hnone rule hmem)
        | some rule =>
          obtain ⟨hmem, hproduct⟩ := (ruleFor_eq_some_iff hnodup).mp hrule
          obtain ⟨decision, hdecision, hallows⟩ :=
            evaluateRule_of_parsed (hparsed rule hmem) manifest.revision current protocolVersion
          refine ⟨decision, hdecision, hallows.trans ?_⟩
          constructor
          · intro hsupports
            exact ⟨hcurrent, hrevoked, current, rfl, rule, hmem, hproduct, hsupports⟩
          · rintro ⟨-, -, other, hother, found, hfound, hfoundProduct, hsupports⟩
            obtain rfl := Option.some.inj hother
            have hsame := (ruleFor_eq_some_iff hnodup).mpr ⟨hfound, hfoundProduct⟩
            rw [hrule] at hsame
            rwa [Option.some.inj hsame]
  · have hfilter : (some manifest).filter (fun value => value.Current nowUnix) = none := by
      simp [hcurrent]
    rw [hfilter]
    refine ⟨_, rfl, ?_⟩
    simp [CompatibilityDecisionV1.allowsNewProtectedSession, hcurrent]

theorem allows_iff (h : manifest.Accepted) :
    Allows manifest product currentVersion protocolVersion nowUnix ↔ manifest.Current nowUnix ∧
      ¬ Revoked manifest product currentVersion nowUnix ∧
      ∃ current, Crates.parseVersion currentVersion = some current ∧
        ∃ rule ∈ manifest.products, rule.product = product.value ∧
          rule.Supports current protocolVersion := by
  obtain ⟨decision, hdecision, hallows⟩ :=
    evaluate_of_accepted h product currentVersion protocolVersion nowUnix
  rw [← hallows]
  constructor
  · rintro ⟨other, hother, hallowed⟩
    rw [hdecision] at hother
    rwa [Option.some.inj hother]
  · exact fun hallowed => ⟨decision, hdecision, hallowed⟩

/-- The order of the rules and of the revocations does not matter. -/
theorem evaluateCompatibility_perm (hnodup : (manifest.products.map (·.product)).Nodup)
    {products : List CompatibilityProductRuleV1} {revocations : List CompatibilityRevocationV1}
    (hproducts : manifest.products.Perm products) (hrevocations : manifest.revocations.Perm revocations)
    (product : CertaelProductV1) (currentVersion : String) (protocolVersion : UInt32)
    (nowUnix : Int64) :
    evaluateCompatibility (some { manifest with products := products, revocations := revocations })
        product currentVersion protocolVersion nowUnix =
      evaluateCompatibility (some manifest) product currentVersion protocolVersion nowUnix := by
  have hrule : ruleFor { manifest with products := products, revocations := revocations } product =
      ruleFor manifest product := by
    apply Option.ext
    intro rule
    rw [ruleFor_eq_some_iff hnodup,
      ruleFor_eq_some_iff ((hproducts.map (·.product)).nodup_iff.mp hnodup), hproducts.mem_iff]
  have hany : (revocations.any fun revocation =>
      decide (revocation.Applies product currentVersion nowUnix)) =
      manifest.revocations.any fun revocation =>
        decide (revocation.Applies product currentVersion nowUnix) := by
    rw [Bool.eq_iff_iff, List.any_eq_true, List.any_eq_true]
    simp only [hrevocations.mem_iff]
  have hcurrent : CompatibilityManifestClaimsV1.Current
      { manifest with products := products, revocations := revocations } nowUnix ↔
        manifest.Current nowUnix := Iff.rfl
  unfold evaluateCompatibility
  by_cases hnow : manifest.Current nowUnix
  · simp only [Option.filter_some, hcurrent, hnow, decide_true, if_true, hrule, hany]
  · simp only [Option.filter_some, hcurrent, hnow, decide_false]
    rfl

/-- A manifest in force stays so at every earlier time from its issue on, and a revocation that is
not in force was not before. -/
theorem allows_earlier (h : manifest.Accepted) {later : Int64}
    (hissued : manifest.issuedAtUnix ≤ nowUnix) (hlater : nowUnix ≤ later)
    (hallows : Allows manifest product currentVersion protocolVersion later) :
    Allows manifest product currentVersion protocolVersion nowUnix := by
  rw [allows_iff h] at hallows ⊢
  obtain ⟨⟨-, hexpires⟩, hrevoked, hsupports⟩ := hallows
  refine ⟨⟨hissued, Int64.lt_of_le_of_lt hlater hexpires⟩, ?_, hsupports⟩
  rintro ⟨revocation, hmem, hproduct, hversion, heffective⟩
  exact hrevoked ⟨revocation, hmem, hproduct, hversion, Int64.le_trans heffective hlater⟩

theorem allows_newer (h : manifest.Accepted) {newer : String} {current other : Crates.Version}
    (hcurrent : Crates.parseVersion currentVersion = some current)
    (hother : Crates.parseVersion newer = some other) (hle : current ≤ other)
    (hrevoked : ¬ Revoked manifest product newer nowUnix)
    (hallows : Allows manifest product currentVersion protocolVersion nowUnix) :
    Allows manifest product newer protocolVersion nowUnix := by
  rw [allows_iff h] at hallows ⊢
  obtain ⟨hnow, -, found, hfound, rule, hmem, hproduct, hlow, hhigh, minimum, hminimum, hsupported⟩ :=
    hallows
  rw [hcurrent] at hfound
  obtain rfl := Option.some.inj hfound
  exact ⟨hnow, hrevoked, other, hother, rule, hmem, hproduct, hlow, hhigh, minimum, hminimum,
    hsupported.trans hle⟩

/-- Decisions of an accepted manifest are always there, do not depend on the order of its lists,
are not taken back at earlier times or for later versions, and allow only what a rule supports and
no revocation withdraws. -/
theorem compatibility_monotone (h : manifest.Accepted) :
    (∀ product currentVersion protocolVersion nowUnix,
      (evaluateCompatibility (some manifest) product currentVersion protocolVersion
        nowUnix).isSome) ∧
    (∀ products revocations, manifest.products.Perm products →
      manifest.revocations.Perm revocations → ∀ product currentVersion protocolVersion nowUnix,
        evaluateCompatibility
            (some { manifest with products := products, revocations := revocations }) product
            currentVersion protocolVersion nowUnix =
          evaluateCompatibility (some manifest) product currentVersion protocolVersion nowUnix) ∧
    (∀ product currentVersion protocolVersion nowUnix later, manifest.issuedAtUnix ≤ nowUnix →
      nowUnix ≤ later → Allows manifest product currentVersion protocolVersion later →
        Allows manifest product currentVersion protocolVersion nowUnix) ∧
    (∀ product version newer current other protocolVersion nowUnix,
      Crates.parseVersion version = some current → Crates.parseVersion newer = some other →
      current ≤ other → ¬ Revoked manifest product version nowUnix →
      ¬ Revoked manifest product newer nowUnix →
      Allows manifest product version protocolVersion nowUnix →
        Allows manifest product newer protocolVersion nowUnix) ∧
    ∀ product currentVersion protocolVersion nowUnix,
      Allows manifest product currentVersion protocolVersion nowUnix →
        ¬ Revoked manifest product currentVersion nowUnix ∧
        ∃ rule ∈ manifest.products, rule.product = product.value ∧
          rule.minimumProtocolVersion ≤ protocolVersion ∧
          protocolVersion ≤ rule.maximumProtocolVersion ∧
          ∃ minimum current, Crates.parseVersion rule.minimumSupportedVersion = some minimum ∧
            Crates.parseVersion currentVersion = some current ∧ minimum ≤ current := by
  refine ⟨?_, ?_, ?_, ?_, ?_⟩
  · intro product currentVersion protocolVersion nowUnix
    obtain ⟨decision, hdecision, -⟩ :=
      evaluate_of_accepted h product currentVersion protocolVersion nowUnix
    exact Option.isSome_iff_exists.mpr ⟨decision, hdecision⟩
  · intro products revocations hproducts hrevocations
    exact evaluateCompatibility_perm h.products.2 hproducts hrevocations
  · intro product currentVersion protocolVersion nowUnix later
    exact allows_earlier h
  · intro product version newer current other protocolVersion nowUnix hversion hnewer hle _ hrevoked
    exact allows_newer h hversion hnewer hle hrevoked
  · intro product currentVersion protocolVersion nowUnix hallows
    obtain ⟨-, hrevoked, current, hcurrent, rule, hmem, hproduct, hlow, hhigh, minimum, hminimum,
      hle⟩ := (allows_iff h).mp hallows
    exact ⟨hrevoked, rule, hmem, hproduct, hlow, hhigh, minimum, current, hminimum, hcurrent, hle⟩

/-! ## Manifests that are not in force yet -/

theorem state_of_evaluateRule {rule : CompatibilityProductRuleV1} {revision : UInt64}
    {current : Crates.Version} {decision : CompatibilityDecisionV1}
    (h : evaluateRule rule revision current protocolVersion = some decision) :
    decision.state ≠ .indeterminate := by
  unfold evaluateRule at h
  split_ifs at h
  · obtain rfl := Option.some.inj h
    simp
  · obtain rfl := Option.some.inj h
    simp
  · obtain ⟨minimum, -, h⟩ := Option.bind_eq_some_iff.mp h
    obtain ⟨recommended, -, h⟩ := Option.bind_eq_some_iff.mp h
    split_ifs at h
    all_goals
      obtain rfl := Option.some.inj h
      simp

theorem state_of_evaluateCompatibility {decision : CompatibilityDecisionV1}
    (h : evaluateCompatibility (some manifest) product currentVersion protocolVersion nowUnix =
      some decision) : decision.state = .indeterminate ↔ ¬ manifest.Current nowUnix := by
  unfold evaluateCompatibility at h
  by_cases hcurrent : manifest.Current nowUnix
  · rw [Option.filter_some, if_pos (decide_eq_true hcurrent)] at h
    simp only [hcurrent, not_true_eq_false, iff_false]
    cases hversion : Crates.parseVersion currentVersion with
    | none =>
      rw [hversion] at h
      obtain rfl := Option.some.inj h
      simp
    | some current =>
      simp only [hversion] at h
      split_ifs at h
      · obtain rfl := Option.some.inj h
        simp
      · cases hrule : ruleFor manifest product with
        | none =>
          rw [hrule] at h
          obtain rfl := Option.some.inj h
          simp
        | some rule =>
          rw [hrule] at h
          exact state_of_evaluateRule h
  · rw [Option.filter_some, if_neg (by simpa using hcurrent)] at h
    obtain rfl := Option.some.inj h
    simp [hcurrent]

/-- There is a decision, and it rests on the manifest. -/
def Determinate (manifest : CompatibilityManifestClaimsV1) (product : CertaelProductV1)
    (currentVersion : String) (protocolVersion : UInt32) (nowUnix : Int64) : Prop :=
  ∃ decision, evaluateCompatibility (some manifest) product currentVersion protocolVersion nowUnix =
    some decision ∧ decision.state ≠ .indeterminate

/-- A manifest that has just been accepted decides nothing as long as its issue time is ahead,
which the validator tolerates. -/
theorem determinate_iff (h : validateCompatibilityManifest manifest nowUnix = .ok ())
    (product : CertaelProductV1) (currentVersion : String) (protocolVersion : UInt32) :
    Determinate manifest product currentVersion protocolVersion nowUnix ↔
      manifest.issuedAtUnix ≤ nowUnix := by
  have hexpires : nowUnix < manifest.expiresAtUnix := by
    unfold validateCompatibilityManifest at h
    split_ifs at h with hbad
    simp only [not_or, Int64.not_le] at hbad
    exact hbad.2.2.2.2.2.2.1
  obtain ⟨decision, hdecision, -⟩ :=
    evaluate_of_accepted ⟨nowUnix, h⟩ product currentVersion protocolVersion nowUnix
  have hstate := state_of_evaluateCompatibility hdecision
  constructor
  · rintro ⟨other, hother, hdeterminate⟩
    rw [hdecision] at hother
    rw [← Option.some.inj hother, ne_eq, hstate, not_not] at hdeterminate
    exact hdeterminate.1
  · intro hissued
    refine ⟨decision, hdecision, ?_⟩
    rw [ne_eq, hstate, not_not]
    exact ⟨hissued, hexpires⟩

end

namespace SampleManifest

/-- The three versions of the sample in their order. -/
def versionNumber : String → Option ℕ
  | "0.9.0" => some 0
  | "1.0.0" => some 1
  | "1.2.0" => some 2
  | _ => none

scoped instance crates : Crates where
  sha256 _ := zeroDigest
  verifyingKey key := key
  sign _ _ := filled 64 0
  verify _ _ signature := decide (signature = filled 64 0)
  verify_sign := verify_filled
  Version := ℕ
  versionOrder := inferInstance
  parseVersion := versionNumber

def manifest : CompatibilityManifestClaimsV1 where
  schemaVersion := 1
  revision := 7
  issuedAtUnix := 1000
  expiresAtUnix := 5000
  products := [{ product := 2, minimumSupportedVersion := "0.9.0", recommendedVersion := "1.2.0",
                 minimumProtocolVersion := 1, maximumProtocolVersion := 1 }]
  revocations := [{ product := 2, version := "1.0.0", effectiveAtUnix := 3000, reason := "defect" }]

theorem accepted : manifest.Accepted := ⟨1000, by decide +kernel⟩

end SampleManifest

open SampleManifest in
theorem compatibility_monotone_sample : Allows manifest .agent "1.2.0" 1 4000 := by
  have holdest : Allows manifest .agent "0.9.0" 1 4000 :=
    ⟨⟨.deprecated, "VERSION_DEPRECATED", some "1.2.0", 7⟩, by decide +kernel, rfl⟩
  have hrevoked : ∀ version, version ≠ "1.0.0" → ¬ Revoked manifest .agent version 4000 := by
    rintro version hne ⟨revocation, hmem, -, hversion, -⟩
    obtain rfl := List.mem_singleton.mp hmem
    exact hne hversion.symm
  exact (compatibility_monotone accepted).2.2.2.1 .agent "0.9.0" "1.2.0" (0 : ℕ) (2 : ℕ) 1 4000 rfl rfl
    (Nat.zero_le 2) (hrevoked _ (by decide)) (hrevoked _ (by decide)) holdest

open SampleManifest in
theorem determinate_sample : Determinate manifest .agent "0.9.0" 1 1000 :=
  (determinate_iff (by decide +kernel) .agent "0.9.0" 1).mpr (by decide)

open SampleManifest in
/-- The clock of the client is a minute behind. -/
theorem not_determinate : ¬ ∀ nowUnix, validateCompatibilityManifest manifest nowUnix = .ok () →
    ∀ product currentVersion protocolVersion,
      Determinate manifest product currentVersion protocolVersion nowUnix := by
  intro h
  obtain ⟨decision, hdecision, hstate⟩ := h 940 (by decide +kernel) .agent "0.9.0" 1
  exact hstate (state_of_evaluateCompatibility hdecision |>.mpr (by decide))

end CertaelAgent.Protocol
