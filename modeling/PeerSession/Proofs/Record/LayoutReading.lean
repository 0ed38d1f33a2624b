import PeerSession.Proofs.Record.LayoutScript

namespace PeerSession.Record

/-!
# Reading layouts

Each part of reading a record follows the corresponding steps of a layout's
script, so the whole of it follows the whole script. Since the fields of any
octets complete or stop the script of some layout, this says what reading does
on all octets.
-/

open Scan

theorem scanFormat_follows
    {first : UInt32}
    {format : Format}
    (recognized : Format.ofFirst first = format) :
    scanFormat.Follows [.read .versionMarker (.word first)] format := by
  subst recognized
  exact (Follows.word .versionMarker first).bind (Follows.pure _)

theorem scanCounter_follows (layout : Layout) :
    (scanCounter layout.format).Follows layout.counterSteps () := by
  cases layout with
  | unmarked counter id =>
      exact Follows.commit (.counter counter)
  | v1 counter | v2 counter | v3 counter =>
      exact (Follows.word .counter counter).bind
        (Follows.commit (.counter counter))

theorem scanId_follows (id : SessionId) :
    scanId.Follows (idSteps id) () :=
  (Follows.blob .localFingerprint id.localFingerprint).bind
    ((Follows.blob .remoteFingerprint id.remoteFingerprint).bind
      (Follows.commit (.id id)))

theorem readVersion_follows (layout : Layout) :
    ∃ front,
      layout.versionSteps = front ++ [.commit (.version layout.version)] ∧
        (readVersion layout.format).Follows front layout.version := by
  cases layout with
  | unmarked counter id =>
      exact ⟨[], rfl, Follows.pure Version.unset⟩
  | v1 _ _ version | v2 _ _ version | v3 _ _ version =>
      exact ⟨[.read .version (.word version.raw)], rfl,
        (Follows.word .version version.raw).bind (Follows.pure version)⟩

theorem scanVersion_follows (layout : Layout) :
    (scanVersion layout.format).Follows
      layout.versionSteps layout.version := by
  obtain ⟨front, split, reads⟩ := readVersion_follows layout
  rw [split]
  exact reads.bind
    ((Follows.commit (.version layout.version)).bind (Follows.pure _))

theorem commitIdentity_follows (blob : Bytes) :
    (commitIdentity blob).Follows [identityStep blob] () := by
  unfold commitIdentity identityStep
  cases identityOfBlob blob with
  | ok identity =>
      exact Follows.commit (.identity identity)
  | error fault =>
      exact Follows.fail (.crashed fault) ()

theorem commitVerified_follows (word : UInt32) :
    (commitVerified (word == 1)).Follows (verifiedSteps word) () := by
  unfold commitVerified verifiedSteps
  by_cases isOne : word = 1
  · simp only [isOne, BEq.rfl, ↓reduceIte]
    exact Follows.commit .verified
  · simp only [isOne, beq_iff_eq, ↓reduceIte]
    exact Follows.pure ()

theorem scanIdentity_follows (layout : Layout) :
    (scanIdentity layout.format).Follows layout.identitySteps () := by
  cases layout with
  | unmarked | v1 =>
      exact Follows.pure ()
  | v2 _ _ _ blob verified | v3 _ _ _ blob verified =>
      exact (Follows.blob .identity blob).bind
        ((commitIdentity_follows blob).bind
          ((Follows.flag .verified verified).bind
            (commitVerified_follows verified)))

theorem scanNegotiation_follows (layout : Layout) :
    (scanNegotiation layout.version layout.format).Follows
      layout.negotiationSteps () := by
  cases layout with
  | unmarked | v1 | v2 =>
      exact Follows.commit (.negotiated _)
  | v3 _ _ _ _ _ required negotiated =>
      exact (Follows.flag .prekeyRequired required).bind
        ((Follows.commit (.prekeyRequired (required == 1))).bind
          ((Follows.word .negotiated negotiated.raw).bind
            (Follows.commit (.negotiated negotiated))))

/-- Reading the fields of a record follows the script of a layout that its first word tells apart. -/
theorem scanFields_follows
    {layout : Layout}
    (recognizable : layout.Recognizable) :
    scanFields.Follows layout.script layout.format := by
  have recognized :
      Format.ofFirst layout.format.firstWord = layout.format :=
    layout.recognizable_iff.mp recognizable
  have split :
      layout.script =
        [.read .versionMarker (.word layout.format.firstWord)] ++
          (layout.counterSteps ++
            (idSteps layout.id ++
              (layout.versionSteps ++
                (layout.identitySteps ++
                  (layout.negotiationSteps ++ []))))) := by
    simp [Layout.script, Layout.laterSteps]
  rw [split]
  unfold scanFields
  exact (scanFormat_follows recognized).bind
    ((scanCounter_follows layout).bind
      ((scanId_follows layout.id).bind
        ((scanVersion_follows layout).bind
          ((scanIdentity_follows layout).bind
            ((scanNegotiation_follows layout).bind
              (Follows.pure layout.format))))))

/-- The format of a record can be told once its first word is there. -/
theorem formatOf_of_completes
    {layout : Layout}
    {bytes rest : Bytes}
    (recognizable : layout.Recognizable)
    (completes : layout.script.Completes bytes rest) :
    formatOf bytes = .ok layout.format := by
  have recognized :
      Format.ofFirst layout.format.firstWord = layout.format :=
    layout.recognizable_iff.mp recognizable
  cases completes with
  | read _ _ _ later =>
      simp only [formatOf, Wire.Cursor.ofBytes, Wire.Value.bytes,
        Wire.Cursor.readWord_wordBytes, recognized]

/-- The fingerprints that octets start with, as far as they go, and what follows. -/
def idAhead (bytes : Bytes) : SessionId × Bytes :=
  let localFingerprint := Wire.blobAhead bytes
  let remoteFingerprint := Wire.blobAhead localFingerprint.2
  ( { localFingerprint := localFingerprint.1
      remoteFingerprint := remoteFingerprint.1 },
    remoteFingerprint.2)

/-- The layout of a format whose fields octets start with, as far as they go. -/
def Format.layoutAhead (format : Format) (bytes : Bytes) : Layout :=
  match format with
  | .unmarked counter =>
      .unmarked counter (idAhead bytes).1
  | .v1 =>
      let counter := Wire.wordAhead bytes
      let id := idAhead counter.2
      let version := Wire.wordAhead id.2
      .v1 counter.1 id.1 ⟨version.1⟩
  | .v2 =>
      let counter := Wire.wordAhead bytes
      let id := idAhead counter.2
      let version := Wire.wordAhead id.2
      let identity := Wire.blobAhead version.2
      let verified := Wire.wordAhead identity.2
      .v2 counter.1 id.1 ⟨version.1⟩ identity.1 verified.1
  | .v3 =>
      let counter := Wire.wordAhead bytes
      let id := idAhead counter.2
      let version := Wire.wordAhead id.2
      let identity := Wire.blobAhead version.2
      let verified := Wire.wordAhead identity.2
      let prekeyRequired := Wire.wordAhead verified.2
      let negotiated := Wire.wordAhead prekeyRequired.2
      .v3 counter.1 id.1 ⟨version.1⟩ identity.1 verified.1
        prekeyRequired.1 ⟨negotiated.1⟩

/-- The layout that octets start with, as far as they go. -/
def layoutAhead (bytes : Bytes) : Layout :=
  let first := Wire.wordAhead bytes
  (Format.ofFirst first.1).layoutAhead first.2

namespace Script.Decided

theorem idSteps
    {script : Script}
    {bytes : Bytes}
    (decided : Decided script (idAhead bytes).2) :
    Decided (idSteps (idAhead bytes).1 ++ script) bytes :=
  .blob .localFingerprint (.blob .remoteFingerprint (.commit _ decided))

theorem identityStep
    {script : Script}
    {bytes : Bytes}
    (blob : Bytes)
    (decided : Decided script bytes) :
    Decided (identityStep blob :: script) bytes := by
  unfold Record.identityStep
  cases identityOfBlob blob with
  | ok identity =>
      exact .commit (.identity identity) decided
  | error fault =>
      exact .refuse (.crashed fault) script bytes

theorem verifiedSteps
    {script : Script}
    {bytes : Bytes}
    (word : UInt32)
    (decided : Decided script bytes) :
    Decided (verifiedSteps word ++ script) bytes := by
  unfold Record.verifiedSteps
  split
  · exact .commit .verified decided
  · exact decided

end Script.Decided

@[simp] theorem Format.format_layoutAhead
    (format : Format)
    (bytes : Bytes) :
    (format.layoutAhead bytes).format = format := by
  cases format <;> rfl

theorem recognizable_layoutAhead (bytes : Bytes) :
    (layoutAhead bytes).Recognizable := by
  rw [Layout.recognizable_iff, layoutAhead, Format.format_layoutAhead,
    Format.firstWord_ofFirst]

theorem decided_laterSteps
    (format : Format)
    (bytes : Bytes) :
    (format.layoutAhead bytes).laterSteps.Decided bytes := by
  cases format with
  | unmarked counter =>
      exact .commit _ (.idSteps (.commit _ (.commit _ (.nil _))))
  | v1 =>
      exact .word _ (.commit _ (.idSteps
        (.word _ (.commit _ (.commit _ (.nil _))))))
  | v2 =>
      exact .word _ (.commit _ (.idSteps
        (.word _ (.commit _ (.blob _ (.identityStep _
          (.word _ (.verifiedSteps _ (.commit _ (.nil _))))))))))
  | v3 =>
      exact .word _ (.commit _ (.idSteps
        (.word _ (.commit _ (.blob _ (.identityStep _
          (.word _ (.verifiedSteps _
            (.word _ (.commit _ (.word _ (.commit _ (.nil _)))))))))))))

/-- All octets complete or stop the script of the layout ahead. -/
theorem decided_layoutAhead (bytes : Bytes) :
    (layoutAhead bytes).script.Decided bytes := by
  unfold layoutAhead Layout.script
  rw [Format.format_layoutAhead, Format.firstWord_ofFirst]
  exact .word .versionMarker (decided_laterSteps _ _)

end PeerSession.Record
