import PeerSession.Archive.Rounds
import PeerSession.Proofs.Archive.Unguarded
import PeerSession.Proofs.Record.RoundTrip
import PeerSession.Proofs.Storage.Keeping

namespace PeerSession

/-!
# The moves of a round

A client opens a session, increments its counter and saves it. With a backend that
keeps its records, no other recipient notices any of these moves, and the client
itself stays on course: what is stored for its recipient and what it has in hand
is the session from the beginning, with the completed rounds added to its counter.
-/

/-- A session whose counter was incremented a number of times. -/
def Session.advanced
    (session : Session)
    (count : Nat) :
    Session :=
  { session with counter := session.counter + UInt32.ofNat count }

namespace Session

variable (session : Session) (count : Nat)

@[simp] theorem recipient_advanced :
    (session.advanced count).recipient = session.recipient :=
  rfl

@[simp] theorem advanced_zero : session.advanced 0 = session := by
  simp [advanced]

theorem edit_advanced :
    (session.advanced count).edit .incrementCounter =
      session.advanced (count + 1) := by
  simp only [advanced, edit, UInt32.ofNat_add, UInt32.add_assoc]
  rfl

/-- The counter is the sum as long as that is a counter. -/
theorem toNat_counter_advanced
    {session : Session}
    {count : Nat}
    (bounded : session.counter.toNat + count < 4294967296) :
    (session.advanced count).counter.toNat =
      session.counter.toNat + count := by
  have isCounter : count < UInt32.size :=
    Nat.lt_of_le_of_lt (Nat.le_add_left ..) bounded
  simp only [advanced, UInt32.toNat_add,
    UInt32.toNat_ofNat_of_lt' isCounter]
  exact Nat.mod_eq_of_lt bounded

end Session

/-- A client can store a session: it can be encoded, and its key is one that is restored. -/
structure Client.CanStore
    (client : Client)
    (session : Session) :
    Prop where
  encodes :
    ∃ record,
      Record.encode client.sealer client.master session = .ok record
  restores :
    ∀ key,
      session.key = some key → client.sealer.Restores client.master key

/-- The counter does not matter for whether a session can be stored. -/
theorem Client.CanStore.advanced
    {client : Client}
    {session : Session}
    (canStore : client.CanStore session)
    (count : Nat) :
    client.CanStore (session.advanced count) where
  encodes := by
    obtain ⟨record, encoded⟩ := canStore.encodes
    obtain ⟨stored, key, storedEncoded, keyEncoded, _⟩ :=
      (Record.encode_eq_ok_iff ..).mp encoded
    have fits :=
      (Record.exists_encode_layoutOf_iff session).mp ⟨_, storedEncoded⟩
    obtain ⟨advanced, advancedEncoded⟩ :=
      (Record.exists_encode_layoutOf_iff (session.advanced count)).mpr fits
    exact ⟨_, (Record.encode_eq_ok_iff ..).mpr
      ⟨advanced, key, advancedEncoded, keyEncoded, rfl⟩⟩
  restores := canStore.restores

/-- What is loaded after a number of rounds: only the first one may change the status. -/
def Loaded.after (initial : Loaded) : Nat → Loaded
  | 0 => initial
  | count + 1 =>
      { session := initial.session.advanced (count + 1)
        status := .complete .v3 }

@[simp] theorem Loaded.session_after
    (initial : Loaded)
    (count : Nat) :
    (initial.after count).session = initial.session.advanced count := by
  cases count with
  | zero =>
      exact initial.session.advanced_zero.symm
  | succ count =>
      rfl

namespace Client

/-- Whatever is loaded, is loaded for the recipient that was asked for. -/
theorem recipient_interpret
    {client : Client}
    {recipient : RecipientId}
    {answer : Except Storage.Error Bytes}
    {loaded : Loaded}
    (interpreted : client.interpret recipient answer = .ok loaded) :
    loaded.session.recipient = recipient := by
  cases answer with
  | error error =>
      cases interpreted
      rfl
  | ok record =>
      rw [Loaded.session_of_ofRecord interpreted]
      exact Session.recipient_commitAll ..

/-- A session that was not stored is the one of which nothing is known. -/
theorem session_of_isFresh
    {client : Client}
    {recipient : RecipientId}
    {answer : Except Storage.Error Bytes}
    {loaded : Loaded}
    (interpreted : client.interpret recipient answer = .ok loaded)
    (fresh : loaded.isFresh = true) :
    loaded.session = .fresh recipient := by
  cases answer with
  | error error =>
      cases interpreted
      rfl
  | ok record =>
      simp only [interpret, Loaded.ofRecord] at interpreted
      split at interpreted <;> cases interpreted <;> cases fresh

/-- The record of a session that a client can store is loaded as that session. -/
theorem CanStore.interpret
    {client : Client}
    {session : Session}
    (canStore : client.CanStore session)
    {record : Bytes}
    (encoded :
      Record.encode client.sealer client.master session = .ok record) :
    client.interpret session.recipient (.ok record) =
      .ok { session := session, status := .complete .v3 } := by
  simp only [Client.interpret, Loaded.ofRecord,
    Record.decodeOver_encode encoded canStore.restores]

section

variable {σ : Type} [Storage.Backend σ]

/-- A load that finishes had its mutex free, and interpreted what the backend answered. -/
theorem load_eq_finished_iff
    (client : Client)
    (archive : Archive σ)
    (recipient : RecipientId)
    (loaded : Loaded) :
    (client.load archive recipient).1 = .finished loaded ↔
      (archive.mutexes (client.lock.slot recipient)).isHeld = false ∧
        client.interpret recipient
            (Storage.Backend.read archive.backend recipient).1 =
          .ok loaded := by
  cases held :
      (archive.mutexes (client.lock.slot recipient)).isHeld with
  | true =>
      simp [load, Archive.guarded_of_held held]
  | false =>
      rw [client.load_of_free held]
      cases client.interpret recipient
          (Storage.Backend.read archive.backend recipient).1 <;>
        simp [Outcome.ofExcept]

/-- What an operation does to the backend it does behind its mutex, or not at all. -/
theorem backend_perform
    (client : Client)
    (archive : Archive σ)
    (operation : Operation) :
    (client.perform archive operation).2.backend = archive.backend ∨
      (client.perform archive operation).2.backend =
        (client.performOn archive.backend operation).2 := by
  cases held :
      (archive.mutexes
        (client.lock.slot operation.recipient)).isHeld with
  | true =>
      exact Or.inl
        (congrArg Archive.backend (client.perform_of_held held))
  | false =>
      rw [client.perform_of_free held]
      exact Or.inr rfl

end

end Client

/-- A recipient does not notice that an archive changed: its record and all mutexes are the same. -/
structure Archive.Unnoticed
    {σ : Type}
    [Storage.Backend σ]
    (sound : σ → Prop)
    (recipient : RecipientId)
    (before after : Archive σ) :
    Prop where
  sound : sound after.backend
  read :
    (Storage.Backend.read after.backend recipient).1 =
      (Storage.Backend.read before.backend recipient).1
  isHeld :
    ∀ slot, (after.mutexes slot).isHeld = (before.mutexes slot).isHeld

section

variable
  {σ : Type}
  [Storage.Backend σ]
  {sound : σ → Prop}
  (keeps : Storage.Keeps sound)
  (client : Client)
  {archive : Archive σ}
  (isSound : sound archive.backend)

include keeps isSound

/-- Nobody notices that a session is opened. -/
theorem Client.unnoticed_openSession
    (opener recipient : RecipientId) :
    archive.Unnoticed sound recipient
      (client.openSession archive opener).2 := by
  change
    archive.Unnoticed sound recipient
      (client.perform archive (.openSession opener)).2
  rcases client.backend_perform archive (.openSession opener) with
      same | opened
  · refine ⟨?_, ?_, client.isHeld_perform archive _⟩
    · rwa [same]
    · rw [same]
  · refine ⟨?_, ?_, client.isHeld_perform archive _⟩
    · rw [opened]
      exact keeps.sound_read opener isSound
    · rw [opened]
      exact keeps.read_read opener recipient isSound

/-- Only its own recipient notices that a session is saved. -/
theorem Client.unnoticed_save
    {session : Session}
    {recipient : RecipientId}
    (different : recipient ≠ session.recipient) :
    archive.Unnoticed sound recipient
      (client.save archive session).2 := by
  change
    archive.Unnoticed sound recipient
      (client.perform archive (.save session)).2
  rcases client.backend_perform archive (.save session) with same | saved
  · refine ⟨?_, ?_, client.isHeld_perform archive _⟩
    · rwa [same]
    · rw [same]
  · cases encoded :
        Record.encode client.sealer client.master session with
    | error error =>
        rw [client.performOn_save_error archive.backend encoded] at saved
        refine ⟨?_, ?_, client.isHeld_perform archive _⟩
        · rwa [saved]
        · rw [saved]
    | ok record =>
        rw [client.performOn_save_ok archive.backend encoded] at saved
        refine ⟨?_, ?_, client.isHeld_perform archive _⟩
        · rw [saved]
          exact keeps.sound_write session.recipient record isSound
        · rw [saved]
          exact keeps.read_write_other record isSound different

end

/-- How far a client is in its round, with the session in its hands. -/
inductive Phase where
  | between
  | opened (session : Session)
  | incremented (session : Session)

namespace Phase

/-- The session in the hands of a client. -/
def session? : Phase → Option Session
  | .between => none
  | .opened session => some session
  | .incremented session => some session

/-- The moves of a round that are made. -/
def progress : Phase → Nat
  | .between => 0
  | .opened _ => 1
  | .incremented _ => 2

theorem progress_lt (phase : Phase) : phase.progress < 3 := by
  cases phase with
  | between =>
      exact Nat.zero_lt_succ 2
  | opened session =>
      exact Nat.succ_lt_succ (Nat.zero_lt_succ 1)
  | incremented session =>
      exact Nat.lt_succ_self 2

theorem eq_between
    {phase : Phase}
    (unmoved : phase.progress = 0) :
    phase = .between := by
  cases phase with
  | between =>
      rfl
  | opened | incremented =>
      cases unmoved

/-- Whoever has a session in hand, has it for this recipient. -/
def BelongsTo (phase : Phase) (recipient : RecipientId) : Prop :=
  ∀ session, phase.session? = some session → session.recipient = recipient

/-- The session in hand is this one, or this one with its counter incremented. -/
def Holds (session : Session) : Phase → Prop
  | .between => True
  | .opened held => held = session
  | .incremented held => held = session.edit .incrementCounter

end Phase

/-- What a move of a client leads to, with the number of rounds that it completes. -/
structure Turn (σ : Type) where
  archive : Archive σ
  phase : Phase
  rounds : Nat

namespace Turn

variable {σ : Type} (archive : Archive σ)

/-- Behind an open: a client without a session tries again. -/
def ofOpening : Attempt Session → Turn σ
  | .finished session =>
      { archive := archive, phase := .opened session, rounds := 0 }
  | .crashed _ =>
      { archive := archive, phase := .between, rounds := 0 }
  | .blocked =>
      { archive := archive, phase := .between, rounds := 0 }

/-- Behind a save: a client that had to wait tries again, one that failed gives the round up. -/
def ofSaving (session : Session) : Attempt (Except Archive.Error Unit) → Turn σ
  | .finished (.ok ()) =>
      { archive := archive, phase := .between, rounds := 1 }
  | .finished (.error _) =>
      { archive := archive, phase := .between, rounds := 0 }
  | .crashed _ =>
      { archive := archive, phase := .between, rounds := 0 }
  | .blocked =>
      { archive := archive, phase := .incremented session, rounds := 0 }

@[simp] theorem archive_ofOpening (attempt : Attempt Session) :
    (ofOpening archive attempt).archive = archive := by
  cases attempt <;> rfl

@[simp] theorem archive_ofSaving
    (session : Session)
    (attempt : Attempt (Except Archive.Error Unit)) :
    (ofSaving archive session attempt).archive = archive := by
  rcases attempt with (error | done) | fault | _ <;> rfl

end Turn

section

variable {σ : Type} [Storage.Backend σ]

/-- The next move of a round: open the session, increment the counter or save. -/
def Client.turn
    (client : Client)
    (recipient : RecipientId)
    (archive : Archive σ) :
    Phase →
    Turn σ
  | .between =>
      let (attempt, after) := client.openSession archive recipient
      .ofOpening after attempt
  | .opened session =>
      { archive := archive
        phase := .incremented (session.edit .incrementCounter)
        rounds := 0 }
  | .incremented session =>
      let (attempt, after) := client.save archive session
      .ofSaving after session attempt

/-- A client that has a session of its own recipient in hand, opens no other one. -/
theorem Client.belongsTo_turn
    (client : Client)
    {recipient : RecipientId}
    (archive : Archive σ)
    {phase : Phase}
    (belongs : phase.BelongsTo recipient) :
    (client.turn recipient archive phase).phase.BelongsTo recipient := by
  intro session held
  cases phase with
  | between =>
      simp only [turn, openSession] at held
      cases attempt : (client.load archive recipient).1 with
      | finished loaded =>
          rw [attempt] at held
          cases held
          have interpreted :=
            ((client.load_eq_finished_iff ..).mp attempt).2
          exact recipient_interpret interpreted
      | crashed | blocked =>
          rw [attempt] at held
          cases held
  | opened opened =>
      cases held
      exact belongs opened rfl
  | incremented incremented =>
      simp only [turn] at held
      rcases attempt : (client.save archive incremented).1 with
          (error | done) | fault | _ <;>
        rw [attempt] at held <;>
        cases held
      exact belongs _ rfl

/-- No move of a client is noticed by another one's recipient. -/
theorem Client.unnoticed_turn
    {sound : σ → Prop}
    (keeps : Storage.Keeps sound)
    (client : Client)
    {archive : Archive σ}
    (isSound : sound archive.backend)
    {phase : Phase}
    {mover recipient : RecipientId}
    (belongs : phase.BelongsTo mover)
    (different : recipient ≠ mover) :
    archive.Unnoticed sound recipient
      (client.turn mover archive phase).archive := by
  cases phase with
  | between =>
      simp only [turn, Turn.archive_ofOpening]
      exact client.unnoticed_openSession keeps isSound mover recipient
  | opened session =>
      exact ⟨isSound, rfl, fun _ => rfl⟩
  | incremented session =>
      simp only [turn, Turn.archive_ofSaving]
      apply client.unnoticed_save keeps isSound
      rwa [belongs session rfl]

/--
A recipient's client is on course after some moves: its mutex is free, its record
and the session in hand tell the rounds that are completed, and these moves were
enough for them.
-/
structure Client.OnCourse
    (client : Client)
    (sound : σ → Prop)
    (recipient : RecipientId)
    (initial : Loaded)
    (archive : Archive σ)
    (phase : Phase)
    (completed moves : Nat) :
    Prop where
  sound : sound archive.backend
  free : (archive.mutexes (client.lock.slot recipient)).isHeld = false
  stored :
    client.interpret recipient
        (Storage.Backend.read archive.backend recipient).1 =
      .ok (initial.after completed)
  holds : phase.Holds (initial.session.advanced completed)
  moves : moves = 3 * completed + phase.progress

namespace Client.OnCourse

variable
  {client : Client}
  {sound : σ → Prop}
  {recipient : RecipientId}
  {initial : Loaded}
  {archive : Archive σ}
  {phase : Phase}
  {completed moves : Nat}

/-- What a recipient does not notice does not lead its client astray. -/
theorem unnoticed
    (onCourse :
      client.OnCourse sound recipient initial archive
        phase completed moves)
    {after : Archive σ}
    (unnoticed : archive.Unnoticed sound recipient after) :
    client.OnCourse sound recipient initial after
      phase completed moves where
  sound := unnoticed.sound
  free := (unnoticed.isHeld _).trans onCourse.free
  stored := by
    rw [unnoticed.read]
    exact onCourse.stored
  holds := onCourse.holds
  moves := onCourse.moves

/-- A client on course opens the session with all its completed rounds. -/
theorem opens
    (onCourse :
      client.OnCourse sound recipient initial archive
        phase completed moves) :
    (client.openSession archive recipient).1 =
      .finished (initial.session.advanced completed) := by
  have loaded :=
    (client.load_eq_finished_iff archive recipient _).mpr
      ⟨onCourse.free, onCourse.stored⟩
  simp only [openSession, loaded, Outcome.map, Loaded.session_after]

/-- A client on course stays on course by its own next move. -/
theorem turn
    (onCourse :
      client.OnCourse sound recipient initial archive
        phase completed moves)
    (keeps : Storage.Keeps sound)
    (canStore : client.CanStore initial.session) :
    let turn := client.turn recipient archive phase
    client.OnCourse sound recipient initial turn.archive turn.phase
      (completed + turn.rounds) (moves + 1) := by
  have isOwn : initial.session.recipient = recipient := by
    have own := recipient_interpret onCourse.stored
    rwa [Loaded.session_after, Session.recipient_advanced] at own
  cases phase with
  | between =>
      have later :=
        onCourse.unnoticed
          (client.unnoticed_openSession keeps onCourse.sound
            recipient recipient)
      simp only [Client.turn, onCourse.opens, Turn.ofOpening]
      exact
        { later with
          holds := rfl
          moves := congrArg (· + 1) later.moves }
  | opened session =>
      have isCurrent : session = initial.session.advanced completed :=
        onCourse.holds
      exact
        { onCourse with
          holds :=
            congrArg
              (fun held : Session => held.edit .incrementCounter)
              isCurrent
          moves := congrArg (· + 1) onCourse.moves }
  | incremented session =>
      have isNext :
          session = initial.session.advanced (completed + 1) :=
        onCourse.holds.trans (initial.session.edit_advanced completed)
      have next := canStore.advanced (completed + 1)
      rw [← isNext] at next
      obtain ⟨record, encoded⟩ := next.encodes
      have own : session.recipient = recipient := by
        rw [isNext, Session.recipient_advanced, isOwn]
      have free := onCourse.free
      rw [← own] at free
      have saved := save_of_free free encoded
      have restored := next.interpret encoded
      simp only [keeps.write_ok _ _ onCourse.sound] at saved
      rw [own] at saved restored
      simp only [Client.turn, saved, Except.mapError, Turn.ofSaving]
      exact
        { sound := keeps.sound_write _ _ onCourse.sound
          free := onCourse.free
          stored := by
            rw [keeps.read_write_same _ _ onCourse.sound, restored,
              isNext]
            rfl
          holds := trivial
          moves := by
            have before := onCourse.moves
            simp only [Phase.progress] at before ⊢
            omega }

end Client.OnCourse

end

end PeerSession
