import PeerSession.Proofs.Wire.Octets
import PeerSession.Record.Commit
import PeerSession.Record.Error

namespace PeerSession.Record

/-!
# Scripts of reading

A script lists what is done while a record is taken over: which fields are read
with which values, and where in between a commit is made or the record is
refused. Octets complete a script if they start with all its values and nothing
is refused; they stop it at a value that is cut off, or at a refusal.
-/

/-- One step of taking over a record. -/
inductive Step where
  | read (field : Field) (value : Wire.Value)
  | commit (change : Commit)
  | refuse (failure : Failure)

namespace Step

/-- The value that a step reads. -/
def value? : Step → Option Wire.Value
  | .read _ value => some value
  | .commit _ => none
  | .refuse _ => none

/-- The commit that a step makes. -/
def commit? : Step → Option Commit
  | .read _ _ => none
  | .commit change => some change
  | .refuse _ => none

/-- The octets ahead stop a step: its value is cut off, or it refuses the record. -/
inductive StopsAt : Step → Bytes → Failure → Prop where
  | cut
      {bytes : Bytes}
      (field : Field)
      (value : Wire.Value)
      (cut : value.kind.CutIn bytes) :
      StopsAt (.read field value) bytes (.rejected (.truncated field))
  | refused
      (bytes : Bytes)
      (failure : Failure) :
      StopsAt (.refuse failure) bytes failure

end Step

/-- The steps of taking over a record, in order. -/
abbrev Script := List Step

namespace Script

/-- The values that a script reads. -/
def values (script : Script) : List Wire.Value :=
  script.filterMap Step.value?

/-- The commits that a script makes. -/
def commits (script : Script) : List Commit :=
  script.filterMap Step.commit?

/-- Octets start with the values of a script that refuses nothing; the rest is left over. -/
inductive Completes : Script → Bytes → Bytes → Prop where
  | nil (rest : Bytes) :
      Completes [] rest rest
  | read
      {script : Script}
      {bytes rest : Bytes}
      (field : Field)
      (value : Wire.Value)
      (fits : value.Fits)
      (later : Completes script bytes rest) :
      Completes (.read field value :: script) (value.bytes ++ bytes) rest
  | commit
      {script : Script}
      {bytes rest : Bytes}
      (change : Commit)
      (later : Completes script bytes rest) :
      Completes (.commit change :: script) bytes rest

/-- Octets stop a script after some commits, with a failure. -/
inductive Stops : Script → Bytes → List Commit → Failure → Prop where
  | here
      {step : Step}
      {bytes : Bytes}
      {failure : Failure}
      (script : Script)
      (stops : step.StopsAt bytes failure) :
      Stops (step :: script) bytes [] failure
  | read
      {script : Script}
      {bytes : Bytes}
      {commits : List Commit}
      {failure : Failure}
      (field : Field)
      (value : Wire.Value)
      (fits : value.Fits)
      (later : Stops script bytes commits failure) :
      Stops
        (.read field value :: script) (value.bytes ++ bytes)
        commits failure
  | commit
      {script : Script}
      {bytes : Bytes}
      {commits : List Commit}
      {failure : Failure}
      (change : Commit)
      (later : Stops script bytes commits failure) :
      Stops (.commit change :: script) bytes (change :: commits) failure

/-- Octets complete a script or stop it. -/
def Decided (script : Script) (bytes : Bytes) : Prop :=
  (∃ rest, Completes script bytes rest) ∨
    ∃ commits failure, Stops script bytes commits failure

@[simp] theorem values_nil : values [] = [] :=
  rfl

@[simp] theorem values_read
    (field : Field)
    (value : Wire.Value)
    (script : Script) :
    values (.read field value :: script) = value :: values script :=
  rfl

@[simp] theorem values_commit
    (change : Commit)
    (script : Script) :
    values (.commit change :: script) = values script :=
  rfl

@[simp] theorem commits_nil : commits [] = [] :=
  rfl

@[simp] theorem commits_read
    (field : Field)
    (value : Wire.Value)
    (script : Script) :
    commits (.read field value :: script) = commits script :=
  rfl

@[simp] theorem commits_commit
    (change : Commit)
    (script : Script) :
    commits (.commit change :: script) = change :: commits script :=
  rfl

@[simp] theorem values_append (front back : Script) :
    values (front ++ back) = values front ++ values back :=
  List.filterMap_append

@[simp] theorem commits_append (front back : Script) :
    commits (front ++ back) = commits front ++ commits back :=
  List.filterMap_append

/-- A script is completed by the octets of its values, if these fit and nothing is refused. -/
theorem completes_iff
    (script : Script)
    (bytes rest : Bytes) :
    Completes script bytes rest ↔
      (∀ value ∈ values script, value.Fits) ∧
        (∀ failure, .refuse failure ∉ script) ∧
        bytes = Wire.octets (values script) ++ rest := by
  constructor
  · intro completes
    induction completes with
    | nil rest =>
        simp [values, Wire.octets]
    | read field value fits later inductionHypothesis =>
        obtain ⟨allFit, unrefused, rfl⟩ := inductionHypothesis
        refine ⟨List.forall_mem_cons.mpr ⟨fits, allFit⟩, ?_, ?_⟩
        · simpa using unrefused
        · exact (List.append_assoc ..).symm
    | commit change later inductionHypothesis =>
        obtain ⟨allFit, unrefused, same⟩ := inductionHypothesis
        exact ⟨allFit, by simpa using unrefused, same⟩
  · rintro ⟨allFit, unrefused, rfl⟩
    induction script with
    | nil =>
        exact .nil rest
    | cons step script inductionHypothesis =>
        have laterUnrefused :
            ∀ failure, .refuse failure ∉ script :=
          fun failure member =>
            unrefused failure (List.mem_cons_of_mem step member)
        cases step with
        | read field value =>
            obtain ⟨fits, laterFit⟩ :=
              List.forall_mem_cons.mp allFit
            have split :
                Wire.octets (values (.read field value :: script)) ++ rest =
                  value.bytes ++
                    (Wire.octets (values script) ++ rest) :=
              List.append_assoc ..
            rw [split]
            exact .read field value fits
              (inductionHypothesis laterFit laterUnrefused)
        | commit change =>
            exact .commit change
              (inductionHypothesis allFit laterUnrefused)
        | refuse failure =>
            exact (unrefused failure (List.mem_cons_self ..)).elim

/-- Completing two scripts in a row completes the first and then the second. -/
theorem completes_append_iff
    (front back : Script)
    (bytes rest : Bytes) :
    Completes (front ++ back) bytes rest ↔
      ∃ middle,
        Completes front bytes middle ∧ Completes back middle rest := by
  constructor
  · intro completes
    induction front generalizing bytes with
    | nil =>
        exact ⟨bytes, .nil bytes, completes⟩
    | cons step front inductionHypothesis =>
        cases completes with
        | read field value fits later =>
            obtain ⟨middle, first, second⟩ :=
              inductionHypothesis _ later
            exact ⟨middle, .read field value fits first, second⟩
        | commit change later =>
            obtain ⟨middle, first, second⟩ :=
              inductionHypothesis _ later
            exact ⟨middle, .commit change first, second⟩
  · rintro ⟨middle, first, second⟩
    induction first with
    | nil =>
        exact second
    | read field value fits _ inductionHypothesis =>
        exact .read field value fits (inductionHypothesis second)
    | commit change _ inductionHypothesis =>
        exact .commit change (inductionHypothesis second)

/-- What stops the first of two scripts stops both. -/
theorem Stops.append_left
    {front : Script}
    {bytes : Bytes}
    {done : List Commit}
    {failure : Failure}
    (stops : Stops front bytes done failure)
    (back : Script) :
    Stops (front ++ back) bytes done failure := by
  induction stops with
  | here script stops =>
      exact .here (script ++ back) stops
  | read field value fits _ inductionHypothesis =>
      exact .read field value fits inductionHypothesis
  | commit change _ inductionHypothesis =>
      exact .commit change inductionHypothesis

/-- The second script may be stopped once the first is completed. -/
theorem Stops.append_right
    {front back : Script}
    {bytes middle : Bytes}
    {done : List Commit}
    {failure : Failure}
    (completes : Completes front bytes middle)
    (stops : Stops back middle done failure) :
    Stops (front ++ back) bytes (commits front ++ done) failure := by
  induction completes with
  | nil =>
      exact stops
  | read field value fits _ inductionHypothesis =>
      exact .read field value fits (inductionHypothesis stops)
  | commit change _ inductionHypothesis =>
      exact .commit change (inductionHypothesis stops)

/-- Two scripts in a row are stopped in the first, or in the second once the first is completed. -/
theorem Stops.of_append
    {front back : Script}
    {bytes : Bytes}
    {done : List Commit}
    {failure : Failure}
    (stops : Stops (front ++ back) bytes done failure) :
    Stops front bytes done failure ∨
      ∃ middle later,
        Completes front bytes middle ∧
          Stops back middle later failure ∧
          done = commits front ++ later := by
  induction front generalizing bytes done with
  | nil =>
      exact Or.inr ⟨bytes, done, .nil bytes, stops, rfl⟩
  | cons step front inductionHypothesis =>
      cases stops with
      | here _ stops =>
          exact Or.inl (.here front stops)
      | read field value fits later =>
          rcases inductionHypothesis later with
              inFront | ⟨middle, last, completes, inBack, rfl⟩
          · exact Or.inl (.read field value fits inFront)
          · exact Or.inr
              ⟨middle, last, .read field value fits completes,
                inBack, rfl⟩
      | commit change later =>
          rcases inductionHypothesis later with
              inFront | ⟨middle, last, completes, inBack, rfl⟩
          · exact Or.inl (.commit change inFront)
          · exact Or.inr
              ⟨middle, last, .commit change completes,
                inBack, rfl⟩

/--
A script is stopped at one of its steps, when all steps before it are completed
and their commits are made, but none of a later step.
-/
theorem stops_iff_exists_step
    (script : Script)
    (bytes : Bytes)
    (done : List Commit)
    (failure : Failure) :
    Stops script bytes done failure ↔
      ∃ front step back ahead,
        script = front ++ step :: back ∧
          Completes front bytes ahead ∧
          step.StopsAt ahead failure ∧
          done = commits front := by
  constructor
  · intro stops
    induction stops with
    | @here step bytes failure script stops =>
        exact ⟨[], step, script, bytes, rfl, .nil bytes, stops, rfl⟩
    | read field value fits _ inductionHypothesis =>
        obtain ⟨front, step, back, ahead, rfl, completes, stops, rfl⟩ :=
          inductionHypothesis
        exact ⟨.read field value :: front, step, back, ahead, rfl,
          .read field value fits completes, stops, rfl⟩
    | commit change _ inductionHypothesis =>
        obtain ⟨front, step, back, ahead, rfl, completes, stops, rfl⟩ :=
          inductionHypothesis
        exact ⟨.commit change :: front, step, back, ahead, rfl,
          .commit change completes, stops, rfl⟩
  · rintro ⟨front, step, back, ahead, rfl, completes, stops, rfl⟩
    simpa using Stops.append_right completes (.here back stops)

/-- What was committed before a script is stopped is a first part of its commits. -/
theorem Stops.isPrefix
    {script : Script}
    {bytes : Bytes}
    {done : List Commit}
    {failure : Failure}
    (stops : Stops script bytes done failure) :
    done <+: commits script := by
  obtain ⟨front, step, back, _, rfl, _, _, rfl⟩ :=
    (stops_iff_exists_step script bytes done failure).mp stops
  exact ⟨commits (step :: back), (commits_append front _).symm⟩

/-- A script is stopped by one of its reads that is cut off, or by one of its refusals. -/
theorem Stops.cause
    {script : Script}
    {bytes : Bytes}
    {done : List Commit}
    {failure : Failure}
    (stops : Stops script bytes done failure) :
    (∃ field value,
        .read field value ∈ script ∧
          failure = .rejected (.truncated field)) ∨
      .refuse failure ∈ script := by
  obtain ⟨front, step, back, _, rfl, _, stopped, _⟩ :=
    (stops_iff_exists_step script bytes done failure).mp stops
  have member : step ∈ front ++ step :: back :=
    List.mem_append_right front (List.mem_cons_self ..)
  cases stopped with
  | cut field value _ =>
      exact Or.inl ⟨field, value, member, rfl⟩
  | refused =>
      exact Or.inr member

/-- No field is reported as truncated that a script neither reads nor refuses so. -/
theorem Stops.not_truncated
    {script : Script}
    {bytes : Bytes}
    {done : List Commit}
    {field : Field}
    (unread : ∀ value, .read field value ∉ script)
    (unrefused : .refuse (.rejected (.truncated field)) ∉ script) :
    ¬ Stops script bytes done (.rejected (.truncated field)) := by
  intro stops
  rcases stops.cause with ⟨other, value, member, same⟩ | member
  · rw [Failure.rejected.injEq, Error.truncated_inj] at same
    subst same
    exact unread value member
  · exact unrefused member

theorem Stops.refuse_mem_of_crash
    {script : Script}
    {bytes : Bytes}
    {done : List Commit}
    {fault : IdentityKey.Fault}
    (stops : Stops script bytes done (.crashed fault)) :
    .refuse (.crashed fault) ∈ script := by
  rcases stops.cause with ⟨_, _, _, same⟩ | member
  · cases same
  · exact member

namespace Decided

theorem nil (bytes : Bytes) : Decided [] bytes :=
  Or.inl ⟨bytes, .nil bytes⟩

theorem commit
    {script : Script}
    {bytes : Bytes}
    (change : Commit)
    (decided : Decided script bytes) :
    Decided (.commit change :: script) bytes := by
  rcases decided with ⟨rest, completes⟩ | ⟨done, failure, stops⟩
  · exact Or.inl ⟨rest, .commit change completes⟩
  · exact Or.inr ⟨change :: done, failure, .commit change stops⟩

/-- A complete value in front changes nothing about what is decided. -/
theorem read
    {script : Script}
    {bytes rest : Bytes}
    {value : Wire.Value}
    (field : Field)
    (fits : value.Fits)
    (split : bytes = value.bytes ++ rest)
    (decided : Decided script rest) :
    Decided (.read field value :: script) bytes := by
  subst split
  rcases decided with ⟨last, completes⟩ | ⟨done, failure, stops⟩
  · exact Or.inl ⟨last, .read field value fits completes⟩
  · exact Or.inr ⟨done, failure, .read field value fits stops⟩

theorem refuse
    (failure : Failure)
    (script : Script)
    (bytes : Bytes) :
    Decided (.refuse failure :: script) bytes :=
  Or.inr ⟨[], failure, .here script (.refused bytes failure)⟩

/-- Octets decide a script that reads the word ahead if what follows decides the rest. -/
theorem word
    {script : Script}
    {bytes : Bytes}
    (field : Field)
    (decided : Decided script (Wire.wordAhead bytes).2) :
    Decided
      (.read field (.word (Wire.wordAhead bytes).1) :: script)
      bytes := by
  rcases Wire.eq_wordAhead_or_cut bytes with same | short
  · exact .read field trivial same decided
  · exact Or.inr ⟨[], _, .here script (.cut field (.word _) short)⟩

/-- Octets decide a script that reads the blob ahead if what follows decides the rest. -/
theorem blob
    {script : Script}
    {bytes : Bytes}
    (field : Field)
    (decided : Decided script (Wire.blobAhead bytes).2) :
    Decided
      (.read field (.blob (Wire.blobAhead bytes).1) :: script)
      bytes := by
  rcases Wire.eq_blobAhead_or_cut bytes with ⟨fits, same⟩ | cut
  · exact .read field fits same decided
  · exact Or.inr ⟨[], _, .here script (.cut field (.blob _) cut)⟩

end Decided

end Script

end PeerSession.Record
