import PeerSession.Guard.Handle
import PeerSession.Proofs.Archive.Unguarded
import PeerSession.Proofs.Guard.Exclusion

namespace PeerSession

/-!
# Descent of handles

Handles are obtained one after the other, and clones only of those obtained before.
Through its clones every handle descends from one origin: from the process, or from
the isolated handle that its mutex was made for. Handles contend with each other
exactly if they descend from the same origin, and a client with standard settings
contends with those that descend from the process.
-/

namespace Guard

namespace Construction

/-- The origin from which the handle at a place descends, possibly through clones. -/
inductive Descends
    (constructions : List Construction) :
    Nat →
    Origin →
    Prop where
  | process
      {place : Nat}
      (obtained : constructions[place]? = some .process) :
      Descends constructions place .process
  | standard
      {place : Nat}
      (obtained : constructions[place]? = some .standard) :
      Descends constructions place .process
  | isolated
      {place : Nat}
      (obtained : constructions[place]? = some .isolated) :
      Descends constructions place (.isolated place)
  | clone
      {place original : Nat}
      {origin : Origin}
      (obtained : constructions[place]? = some (.clone original))
      (descends : Descends constructions original origin) :
      Descends constructions place origin

/-- Only handles that were obtained before are cloned. -/
def ClonesEarlier (constructions : List Construction) : Prop :=
  ∀ place original : Nat,
    constructions[place]? = some (.clone original) → original < place

namespace Descends

variable {earlier constructions : List Construction} {place : Nat}

/-- No handle descends from two origins. -/
theorem unique
    {left right : Origin}
    (descendsLeft : Descends constructions place left)
    (descendsRight : Descends constructions place right) :
    left = right := by
  induction descendsLeft with
  | process obtained =>
      cases descendsRight <;> simp_all
  | standard obtained =>
      cases descendsRight <;> simp_all
  | isolated obtained =>
      cases descendsRight <;> simp_all
  | clone obtained _ inductionHypothesis =>
      cases descendsRight with
      | clone again descends =>
          have same := obtained.symm.trans again
          cases same
          exact inductionHypothesis descends
      | _ => simp_all

/-- Handles that are obtained later do not change where the earlier ones descend from. -/
theorem append
    {origin : Origin}
    (descends : Descends earlier place origin)
    (later : List Construction) :
    Descends (earlier ++ later) place origin := by
  have kept
      {place : Nat}
      {construction : Construction}
      (obtained : earlier[place]? = some construction) :
      (earlier ++ later)[place]? = some construction := by
    obtain ⟨inside, _⟩ := List.getElem?_eq_some_iff.mp obtained
    rw [List.getElem?_append_left inside, obtained]
  induction descends with
  | process obtained =>
      exact .process (kept obtained)
  | standard obtained =>
      exact .standard (kept obtained)
  | isolated obtained =>
      exact .isolated (kept obtained)
  | clone obtained _ inductionHypothesis =>
      exact .clone (kept obtained) inductionHypothesis

theorem of_process
    (obtained :
      constructions[place]? ∈ [some .process, some .standard]) :
    Descends constructions place .process := by
  rcases List.mem_pair.mp obtained with isProcess | isStandard
  · exact .process isProcess
  · exact .standard isStandard

/-- Where only earlier handles are cloned, none descends from one that comes behind it. -/
theorem serial_le
    (ordered : ClonesEarlier constructions)
    {serial : Nat}
    (descends : Descends constructions place (.isolated serial)) :
    serial ≤ place := by
  generalize isIsolated : Origin.isolated serial = origin at descends
  induction descends with
  | process obtained =>
      cases isIsolated
  | standard obtained =>
      cases isIsolated
  | isolated obtained =>
      cases isIsolated
      exact Nat.le_refl serial
  | clone obtained _ inductionHypothesis =>
      have isEarlier := ordered _ _ obtained
      exact Nat.le_trans (inductionHypothesis isIsolated)
        (Nat.le_of_lt isEarlier)

end Descends

/-- Constructions led to handles, each of which bears the origin that it descends from. -/
structure Yields
    (constructions : List Construction)
    (handles : List Handle) :
    Prop where
  length : handles.length = constructions.length
  descends :
    ∀ place handle,
      handles[place]? = some handle →
        Descends constructions place handle.origin

namespace Yields

variable
  {earlier : List Construction}
  {built : List Handle}
  {construction : Construction}
  {handle : Handle}

theorem nil : Yields [] [] where
  length := rfl
  descends := nofun

/-- What is obtained next descends from its own place, the process or the handle it clones. -/
theorem descends_last
    (yields : Yields earlier built)
    (obtained : construction.handle? built = some handle) :
    Descends (earlier ++ [construction]) earlier.length handle.origin := by
  have last :
      (earlier ++ [construction])[earlier.length]? = some construction :=
    List.getElem?_concat_length
  cases construction with
  | process =>
      cases obtained
      exact .process last
  | standard =>
      cases obtained
      exact .standard last
  | isolated =>
      cases obtained
      rw [yields.length]
      exact .isolated last
  | clone original =>
      exact .clone last ((yields.descends original handle obtained).append _)

theorem append
    (yields : Yields earlier built)
    (obtained : construction.handle? built = some handle) :
    Yields (earlier ++ [construction]) (built ++ [handle]) where
  length := by
    simp only [List.length_append, yields.length, List.length_singleton]
  descends := by
    intro place other found
    rcases Nat.lt_or_ge place built.length with inside | beyond
    · rw [List.getElem?_append_left inside] at found
      exact (yields.descends place other found).append _
    · rw [List.getElem?_append_right beyond,
        List.getElem?_singleton] at found
      split at found
      · cases found
        have isLast : place = earlier.length := by
          rw [← yields.length]
          omega
        rw [isLast]
        exact yields.descends_last obtained
      · cases found

/-- A handle that is to be cloned is there. -/
theorem exists_handle
    (yields : Yields earlier built)
    {later : List Construction}
    (ordered : ClonesEarlier (earlier ++ construction :: later)) :
    ∃ handle, construction.handle? built = some handle := by
  cases construction with
  | clone original =>
      have isEarlier : original < earlier.length := by
        apply ordered earlier.length original
        rw [List.getElem?_append_right (Nat.le_refl _), Nat.sub_self,
          List.getElem?_cons_zero]
      rw [← yields.length] at isEarlier
      exact ⟨built[original], List.getElem?_eq_getElem isEarlier⟩
  | _ => exact ⟨_, rfl⟩

/-- Further handles are obtained one after the other. -/
theorem exists_buildOnto
    (yields : Yields earlier built)
    {later : List Construction}
    (ordered : ClonesEarlier (earlier ++ later)) :
    ∃ handles,
      buildOnto? built later = some handles ∧
        Yields (earlier ++ later) handles := by
  induction later generalizing earlier built with
  | nil =>
      rw [List.append_nil]
      exact ⟨built, rfl, yields⟩
  | cons construction later inductionHypothesis =>
      obtain ⟨handle, obtained⟩ := yields.exists_handle ordered
      rw [List.append_cons] at ordered ⊢
      obtain ⟨handles, isBuilt, yielded⟩ :=
        inductionHypothesis (yields.append obtained) ordered
      refine ⟨handles, ?_, yielded⟩
      simp only [buildOnto?, obtained, isBuilt]

theorem descends_iff
    (yields : Yields earlier built)
    (place : Fin built.length)
    (origin : Origin) :
    Descends earlier place origin ↔ built[place].origin = origin := by
  have descends :=
    yields.descends place built[place]
      (List.getElem?_eq_getElem place.isLt)
  constructor
  · exact descends.unique
  · rintro rfl
    exact descends

/-- Handles contend with each other exactly if they descend from the same origin. -/
theorem contendsWith_iff
    (yields : Yields earlier built)
    (left right : Fin built.length) :
    built[left].contendsWith built[right] = true ↔
      ∃ origin,
        Descends earlier left origin ∧ Descends earlier right origin := by
  simp only [yields.descends_iff, Handle.contendsWith_iff]
  constructor
  · intro same
    exact ⟨_, same, rfl⟩
  · rintro ⟨origin, sameLeft, sameRight⟩
    exact sameLeft.trans sameRight.symm

end Yields

/-- Any constructions that clone only what was obtained before can be carried out. -/
theorem exists_build
    {constructions : List Construction}
    (ordered : ClonesEarlier constructions) :
    ∃ handles,
      build? constructions = some handles ∧
        Yields constructions handles :=
  Yields.nil.exists_buildOnto ordered

end Construction

namespace Lock

/-- While a handle's mutex is held, exactly the handles that contend with it have theirs held. -/
theorem isHeld_act_single
    {mutexes : Mutexes Slot}
    (allFree : mutexes.AllFree)
    (holder : Handle)
    (recipient : RecipientId) :
    let step := (single holder).act mutexes (.acquire recipient)
    step.1 = .acquired ∧
      ∀ handle other,
        (step.2 ((single handle).slot other)).isHeld =
          holder.contendsWith handle := by
  rw [act_acquire_of_free (allFree _)]
  refine ⟨rfl, ?_⟩
  intro handle other
  by_cases same : holder.origin = handle.origin
  · simp [slot, same, update_eq_functionUpdate, Handle.contendsWith,
      Mutex.heldFor, Mutex.isHeld]
  · have elsewhere :
        (single handle).slot other ≠ (single holder).slot recipient := by
      intro here
      exact same (Slot.single.inj here).symm
    simp [update_eq_functionUpdate, Function.update_of_ne elsewhere,
      allFree _, Handle.contendsWith, same]

end Lock

/--
Handles are obtained one after the other, and clones only of those obtained before.
To contend with each other is an equivalence, by which two of them are together exactly
if they descend from the same origin. So those of the process are together, those that
are isolated are with none obtained before, and a clone is with what it was cloned
from. While one of them has its mutex held for a recipient, those that contend with it
have theirs held, and no others. A client with standard settings waits then if and only
if that one descends from the process.
-/
theorem handles_contend_by_descent
    {σ : Type}
    [Storage.Backend σ]
    (constructions : List Construction)
    (ordered : Construction.ClonesEarlier constructions) :
    ∃ handles : List Handle,
      Construction.build? constructions = some handles ∧
        handles.length = constructions.length ∧
        let From := Construction.Descends constructions
        let Contend := fun left right : Fin handles.length =>
          handles[left].contendsWith handles[right] = true
        Equivalence Contend ∧
          (∀ left right,
            Contend left right ↔
              ∃ origin, From left origin ∧ From right origin) ∧
          (∀ left right : Fin handles.length,
            constructions[left.val]? ∈ [some .process, some .standard] →
            constructions[right.val]? ∈ [some .process, some .standard] →
              Contend left right) ∧
          (∀ left right : Fin handles.length,
            constructions[right.val]? = some .isolated →
            left < right →
              ¬ Contend left right) ∧
          (∀ left right : Fin handles.length,
            constructions[right.val]? = some (.clone left) →
              Contend left right) ∧
          ∀ (holder : Fin handles.length) (mutexes : Mutexes Slot)
              (recipient : RecipientId),
            mutexes.AllFree →
              let step :=
                (Lock.single handles[holder]).act mutexes
                  (.acquire recipient)
              step.1 = .acquired ∧
                (∀ (handle : Fin handles.length) other,
                  (step.2
                      ((Lock.single handles[handle]).slot other)).isHeld =
                    true ↔
                  Contend holder handle) ∧
                ∀ (master : MasterSecret) (backend : σ),
                  let client := Client.standard master
                  let archive : Archive σ :=
                    { backend := backend, mutexes := step.2 }
                  (∀ other,
                      (client.load archive other).1 = .blocked ↔
                        From holder .process) ∧
                    (∀ other,
                      (client.delete archive other).1 = .blocked ↔
                        From holder .process) ∧
                    ∀ session record,
                      Record.encode client.sealer client.master session =
                          .ok record →
                        ((client.save archive session).1 = .blocked ↔
                          From holder .process) := by
  obtain ⟨handles, isBuilt, yields⟩ := Construction.exists_build ordered
  refine ⟨handles, isBuilt, yields.length, ?_⟩
  intro From Contend
  have descent (left right : Fin handles.length) :
      Contend left right ↔ ∃ origin, From left origin ∧ From right origin :=
    yields.contendsWith_iff left right
  refine ⟨?_, descent, ?_, ?_, ?_, ?_⟩
  · simp only [Contend, Handle.contendsWith_iff]
    exact ⟨fun _ => rfl, Eq.symm, Eq.trans⟩
  · intro left right ofProcess alsoOfProcess
    exact (descent left right).mpr
      ⟨.process, .of_process ofProcess, .of_process alsoOfProcess⟩
  · intro left right obtained before contends
    obtain ⟨origin, fromLeft, fromRight⟩ := (descent left right).mp contends
    cases fromRight.unique (.isolated obtained)
    exact Nat.not_le_of_lt before (fromLeft.serial_le ordered)
  · intro left right obtained
    have fromLeft := (yields.descends_iff left _).mpr rfl
    exact (descent left right).mpr
      ⟨_, fromLeft, .clone obtained fromLeft⟩
  · intro holder mutexes recipient allFree step
    obtain ⟨acquired, held⟩ :=
      Lock.isHeld_act_single allFree handles[holder] recipient
    refine ⟨acquired, ?_, ?_⟩
    · intro handle other
      rw [held]
    · intro master backend client archive
      have waits (other : RecipientId) :
          (archive.mutexes (client.lock.slot other)).isHeld = true ↔
            From holder .process := by
        calc
          (archive.mutexes (client.lock.slot other)).isHeld = true ↔
              handles[holder].contendsWith .process = true := by
            rw [← held .process other]
            rfl
          _ ↔ handles[holder].origin = .process :=
            Handle.contendsWith_iff _ .process
          _ ↔ From holder .process :=
            (yields.descends_iff holder .process).symm
      refine ⟨?_, ?_, ?_⟩
      · intro other
        rw [← waits other]
        exact archive.guarded_eq_blocked_iff _ _ _
      · intro other
        rw [← waits other]
        exact archive.guarded_eq_blocked_iff _ _ _
      · intro session record encodes
        rw [← waits session.recipient]
        simp only [Client.save, encodes]
        exact archive.guarded_eq_blocked_iff _ _ _

/-- Two handles that are isolated, two of the process, and clones of clones. -/
def nestedClones : List Construction :=
  [.isolated, .clone 0, .process, .clone 1, .standard, .isolated, .clone 4]

theorem clonesEarlier_nestedClones :
    Construction.ClonesEarlier nestedClones := by
  intro place original obtained
  match place, obtained with
  | 1, rfl => decide
  | 3, rfl => decide
  | 6, rfl => decide

/--
The clone of a clone contends with the handle that the first one was cloned from, but
not with the one isolated later. Of its mutex a client with standard settings knows
nothing, while it waits for a clone of the standard handle.
-/
theorem handles_contend_by_descent_nestedClones :
    ∃ handles : List Handle,
      Construction.ClonesEarlier nestedClones ∧
        Construction.build? nestedClones = some handles ∧
        ∃ first third fifth last,
          handles[0]? = some first ∧
            handles[3]? = some third ∧
            handles[5]? = some fifth ∧
            handles[6]? = some last ∧
            first.contendsWith third = true ∧
            ¬ third.contendsWith fifth = true ∧
            let client := Client.standard { bytes := [] }
            let archive (holder : Handle) : Archive Storage.Memory :=
              { backend := .empty
                mutexes :=
                  ((Lock.single holder).act .unused (.acquire 9)).2 }
            (client.load (archive last) 4).1 = .blocked ∧
              ¬ (client.load (archive third) 4).1 = .blocked := by
  obtain ⟨handles, isBuilt, length, _, descent, _, isolation, _, holding⟩ :=
    handles_contend_by_descent (σ := Storage.Memory) nestedClones
      clonesEarlier_nestedClones
  replace length : handles.length = 7 := length
  have fromThird :
      Construction.Descends nestedClones 3 (.isolated 0) :=
    .clone rfl (.clone rfl (.isolated rfl))
  have fromLast : Construction.Descends nestedClones 6 .process :=
    .clone rfl (.standard rfl)
  have waits (holder : Fin handles.length) :=
    (holding holder .unused 9 Mutexes.allFree_unused).2.2 { bytes := [] }
      .empty
  refine
    ⟨handles, clonesEarlier_nestedClones, isBuilt,
      handles[0], handles[3], handles[5], handles[6],
      List.getElem?_eq_getElem _, List.getElem?_eq_getElem _,
      List.getElem?_eq_getElem _, List.getElem?_eq_getElem _,
      ?_, ?_, ?_, ?_⟩
  · exact (descent ⟨0, by omega⟩ ⟨3, by omega⟩).mpr
      ⟨_, .isolated rfl, fromThird⟩
  · exact isolation ⟨3, by omega⟩ ⟨5, by omega⟩ rfl
      (show 3 < 5 by decide)
  · exact ((waits ⟨6, by omega⟩).1 4).mpr fromLast
  · intro blocked
    have fromProcess := ((waits ⟨3, by omega⟩).1 4).mp blocked
    cases fromThird.unique fromProcess

end Guard

end PeerSession
