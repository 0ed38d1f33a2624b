import PeerSession.Proofs.Key.IdentityParsing
import PeerSession.Proofs.Record.LayoutScript

namespace PeerSession.Record

/-!
# Contents of complete layouts

A script is completed by exactly the octets of its layout, provided that the
identity blob holds a key or nothing. What is then taken over into a session are
the values of the layout; what the layout does not store stays as it was.
-/

/-- A blob stores an identity key in front of a surplus, or no key if it is empty. -/
def StoresIdentity (blob : Bytes) : Option IdentityKey → Prop
  | none => blob = []
  | some key => ∃ surplus, blob = key.toBytes ++ surplus

theorem storesIdentity_nil_iff (identity : Option IdentityKey) :
    StoresIdentity [] identity ↔ identity = none := by
  cases identity <;> simp [StoresIdentity, IdentityKey.toBytes]

/-- Exactly the blobs that store an identity are read as that identity. -/
theorem identityOfBlob_eq_ok_iff
    (blob : Bytes)
    (identity : Option IdentityKey) :
    identityOfBlob blob = .ok identity ↔
      StoresIdentity blob identity := by
  unfold identityOfBlob
  cases blob with
  | nil =>
      cases identity with
      | none =>
          simp [StoresIdentity]
      | some key =>
          simp [StoresIdentity, IdentityKey.toBytes]
  | cons octet blob =>
      simp only [List.isEmpty_cons, Bool.false_eq_true, ↓reduceIte]
      cases identity with
      | none =>
          cases parsed : IdentityKey.parse (octet :: blob) 0 <;>
            simp [StoresIdentity, Except.map]
      | some key =>
          have parses := IdentityKey.parse_eq_ok_iff (octet :: blob) 0 key
          rw [List.drop_zero] at parses
          rw [StoresIdentity, ← parses]
          cases parsed : IdentityKey.parse (octet :: blob) 0 <;>
            simp [Except.map]

/-- A blob that is not empty is judged by its length first and then by its type octet. -/
theorem identityOfBlob_cons
    (kind : UInt8)
    (material : Bytes) :
    identityOfBlob (kind :: material) =
      if enough : 32 ≤ material.length then
        if kind = IdentityKey.typeOctet then
          .ok
            (some
              { publicKey := material.take 32
                length_eq := List.length_take_of_le enough })
        else
          .error .unknownType
      else
        .error .tooShort := by
  by_cases enough : 32 ≤ material.length
  · by_cases isKey : kind = IdentityKey.typeOctet
    · subst isKey
      simp only [identityOfBlob, IdentityKey.parse, List.drop_zero,
        List.isEmpty_cons, Bool.false_eq_true, enough, ↓reduceIte,
        ↓reduceDIte]
      rfl
    · simp only [identityOfBlob, IdentityKey.parse, List.drop_zero,
        List.isEmpty_cons, Bool.false_eq_true, enough, isKey, ↓reduceIte,
        ↓reduceDIte]
      rfl
  · simp only [identityOfBlob, IdentityKey.parse, List.drop_zero,
      List.isEmpty_cons, Bool.false_eq_true, enough, ↓reduceIte,
      ↓reduceDIte]
    rfl

@[simp] theorem values_identityStep
    (blob : Bytes)
    (script : Script) :
    Script.values (identityStep blob :: script) = script.values := by
  unfold identityStep
  cases identityOfBlob blob <;> rfl

@[simp] theorem values_verifiedSteps (word : UInt32) :
    (verifiedSteps word).values = [] := by
  unfold verifiedSteps
  split <;> rfl

theorem refuse_eq_identityStep_iff
    (failure : Failure)
    (blob : Bytes) :
    .refuse failure = identityStep blob ↔
      ∃ fault,
        identityOfBlob blob = .error fault ∧ failure = .crashed fault := by
  unfold identityStep
  cases identityOfBlob blob <;> simp

theorem refuse_notMem_verifiedSteps
    (word : UInt32)
    (failure : Failure) :
    .refuse failure ∉ verifiedSteps word := by
  unfold verifiedSteps
  split <;> simp

namespace Layout

theorem values_script (layout : Layout) :
    layout.script.values = layout.values := by
  cases layout <;>
    simp [script, laterSteps, counterSteps, idSteps, versionSteps,
      identitySteps, negotiationSteps, format, Format.firstWord,
      id, values, fields, idFields]

/-- A script refuses nothing but an identity blob that is malformed. -/
theorem refuse_mem_script_iff
    (layout : Layout)
    (failure : Failure) :
    .refuse failure ∈ layout.script ↔
      ∃ fault,
        identityOfBlob layout.identityBlob = .error fault ∧
          failure = .crashed fault := by
  cases layout with
  | unmarked | v1 =>
      simp [script, laterSteps, counterSteps, idSteps, versionSteps,
        identitySteps, negotiationSteps, identityBlob, identityOfBlob]
  | v2 | v3 =>
      simp [script, laterSteps, counterSteps, idSteps, versionSteps,
        identitySteps, negotiationSteps, identityBlob,
        refuse_eq_identityStep_iff, refuse_notMem_verifiedSteps]

/-- A script refuses nothing exactly if the identity blob stores something. -/
theorem refuse_notMem_script_iff (layout : Layout) :
    (∀ failure, .refuse failure ∉ layout.script) ↔
      ∃ identity, StoresIdentity layout.identityBlob identity := by
  simp only [refuse_mem_script_iff, ← identityOfBlob_eq_ok_iff]
  cases identityOfBlob layout.identityBlob <;> simp

/-- A script is completed by the octets of its layout, if its blob stores an identity. -/
theorem completes_script_iff
    (layout : Layout)
    (bytes rest : Bytes) :
    layout.script.Completes bytes rest ↔
      (∃ stored, layout.encode = .ok stored ∧ bytes = stored ++ rest) ∧
        ∃ identity, StoresIdentity layout.identityBlob identity := by
  rw [Script.completes_iff, refuse_notMem_script_iff, values_script]
  simp only [encode, Wire.encode_eq_ok_iff]
  constructor
  · rintro ⟨allFit, stores, same⟩
    exact ⟨⟨_, ⟨allFit, rfl⟩, same⟩, stores⟩
  · rintro ⟨⟨stored, ⟨allFit, rfl⟩, same⟩, stores⟩
    exact ⟨allFit, stores, same⟩

end Layout

/-- What a session becomes when a complete layout with this identity is taken over. -/
def Layout.takenOver
    (layout : Layout)
    (identity : Option IdentityKey)
    (session : Session) :
    Session where
  recipient := session.recipient
  counter := layout.counter
  id := layout.id
  version := layout.version
  negotiated := layout.negotiated
  identity := if layout.verified?.isSome then identity else session.identity
  key := session.key
  verified := session.verified || layout.verified? == some 1
  prekeyRequired :=
    match layout.prekeyRequired? with
    | some word => word == 1
    | none => session.prekeyRequired

/-- Every script commits counter, fingerprints and version before anything else. -/
theorem Layout.commits_script (layout : Layout) :
    layout.script.commits =
      .counter layout.counter ::
        .id layout.id ::
          .version layout.version ::
            (layout.identitySteps.commits ++
              layout.negotiationSteps.commits) := by
  cases layout <;>
    simp [script, laterSteps, counterSteps, idSteps, versionSteps,
      counter, id, version]

theorem commits_identityStep
    {blob : Bytes}
    {identity : Option IdentityKey}
    (stores : StoresIdentity blob identity)
    (script : Script) :
    Script.commits (identityStep blob :: script) =
      .identity identity :: script.commits := by
  rw [← identityOfBlob_eq_ok_iff] at stores
  simp only [identityStep, stores, Script.commits_commit]

theorem commitAll_verifiedSteps
    (session : Session)
    (word : UInt32) :
    session.commitAll (verifiedSteps word).commits =
      { session with verified := session.verified || word == 1 } := by
  unfold verifiedSteps
  by_cases isOne : word = 1
  · simp [isOne, Session.commitAll, Session.commit]
  · have unset : (word == 1) = false :=
      beq_false_of_ne isOne
    simp [isOne, unset, Session.commitAll]

/-- Taking over a complete layout puts its values in place. -/
theorem commitAll_script
    {layout : Layout}
    {identity : Option IdentityKey}
    (session : Session)
    (stores : StoresIdentity layout.identityBlob identity) :
    session.commitAll layout.script.commits =
      layout.takenOver identity session := by
  rw [layout.commits_script]
  cases layout with
  | unmarked | v1 =>
      simp [Session.commitAll, Session.commit, Layout.takenOver,
        Layout.identitySteps, Layout.negotiationSteps,
        Layout.negotiated, Layout.verified?, Layout.prekeyRequired?]
  | v2 _ _ _ blob verified | v3 _ _ _ blob verified =>
      have commits :
          Script.commits
              (identityStep blob ::
                .read .verified (.word verified) ::
                  verifiedSteps verified) =
            .identity identity :: (verifiedSteps verified).commits :=
        commits_identityStep stores _
      simp only [Layout.identitySteps, Script.commits_read, commits,
        List.cons_append, Session.commitAll_cons,
        Session.commitAll_append, commitAll_verifiedSteps]
      rfl

end PeerSession.Record
