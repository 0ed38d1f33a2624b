import PeerSession.Proofs.Archive.Rounds
import PeerSession.Proofs.Key.PlainSealer

namespace PeerSession

/-!
# Interleaved rounds

Clients that share an archive carry out rounds, each one for a recipient of its
own, and their moves may be made in any order. No recipient notices the others, so
its counter is the one from the beginning and the number of its rounds, and nothing
else of its session changes, even if its first round wrote the record in another
format. Rounds for one recipient after the other are one of these orders.
-/

/-- Clients of an archive that carry out rounds, each one for a recipient of its own. -/
structure Crew (σ : Type) where
  archive : Archive σ
  phases : RecipientId → Phase
  completed : RecipientId → Nat

namespace Crew

variable {σ : Type}

/-- A crew before its first round. -/
def start (archive : Archive σ) : Crew σ where
  archive := archive
  phases := fun _ => .between
  completed := fun _ => 0

/-- Whoever has a session in hand, has it for the recipient of its own. -/
def Owns (crew : Crew σ) : Prop :=
  ∀ owner, (crew.phases owner).BelongsTo owner

theorem owns_start (archive : Archive σ) : (start archive).Owns := by
  intro owner session held
  cases held

variable [Storage.Backend σ]

/-- The client of a recipient makes its next move. -/
def move
    (clients : RecipientId → Client)
    (crew : Crew σ)
    (mover : RecipientId) :
    Crew σ :=
  let turn :=
    (clients mover).turn mover crew.archive (crew.phases mover)
  { archive := turn.archive
    phases := update crew.phases mover turn.phase
    completed :=
      update crew.completed mover (crew.completed mover + turn.rounds) }

/-- Make moves in the order in which their recipients are scheduled. -/
def run
    (clients : RecipientId → Client)
    (crew : Crew σ)
    (schedule : List RecipientId) :
    Crew σ :=
  schedule.foldl (move clients) crew

variable
  {clients : RecipientId → Client}
  {sound : σ → Prop}
  {recipient : RecipientId}
  {initial : Loaded}
  {crew : Crew σ}

theorem owns_move
    (owns : crew.Owns)
    (mover : RecipientId) :
    (crew.move clients mover).Owns := by
  intro owner
  simp only [move, update_eq_functionUpdate]
  by_cases same : owner = mover
  · subst same
    rw [Function.update_self]
    exact (clients owner).belongsTo_turn crew.archive (owns owner)
  · rw [Function.update_of_ne same]
    exact owns owner

/-- The client of a recipient is on course after some moves of its own. -/
def OnCourse
    (crew : Crew σ)
    (client : Client)
    (sound : σ → Prop)
    (recipient : RecipientId)
    (initial : Loaded)
    (moves : Nat) :
    Prop :=
  client.OnCourse sound recipient initial crew.archive
    (crew.phases recipient) (crew.completed recipient) moves

section

variable
  (clients)
  {moves : Nat}
  (onCourse :
    crew.OnCourse (clients recipient) sound recipient initial moves)
  (owns : crew.Owns)
  (keeps : Storage.Keeps sound)
  (canStore : (clients recipient).CanStore initial.session)

include onCourse owns keeps canStore

/-- A move keeps a client on course, whoever makes it. -/
theorem onCourse_move (mover : RecipientId) :
    (crew.move clients mover).OnCourse (clients recipient) sound recipient
      initial (moves + [mover].count recipient) := by
  unfold OnCourse move
  simp only [update_eq_functionUpdate]
  by_cases same : recipient = mover
  · subst same
    rw [Function.update_self, Function.update_self,
      List.count_singleton_self]
    exact Client.OnCourse.turn onCourse keeps canStore
  · rw [Function.update_of_ne same, Function.update_of_ne same,
      List.count_eq_zero_of_not_mem (by simpa using same)]
    exact Client.OnCourse.unnoticed onCourse
      ((clients mover).unnoticed_turn keeps onCourse.sound
        (owns mover) same)

/-- However the clients take turns, one that is on course stays on course. -/
theorem onCourse_run (schedule : List RecipientId) :
    (crew.run clients schedule).OnCourse (clients recipient) sound
      recipient initial (moves + schedule.count recipient) := by
  induction schedule generalizing crew moves with
  | nil =>
      exact onCourse
  | cons mover rest inductionHypothesis =>
      have moved :=
        onCourse_move clients onCourse owns keeps canStore mover
      have later := inductionHypothesis moved (owns_move owns mover)
      rwa [Nat.add_assoc, ← List.count_append] at later

end

section

variable {client : Client} {moves rounds : Nat}

/-- A client that loads a session is on course before its first move. -/
theorem onCourse_start
    {archive : Archive σ}
    (isSound : sound archive.backend)
    (loaded : (client.load archive recipient).1 = .finished initial) :
    (start archive).OnCourse client sound recipient initial 0 := by
  obtain ⟨free, interpreted⟩ :=
    (client.load_eq_finished_iff ..).mp loaded
  exact
    { sound := isSound
      free := free
      stored := interpreted
      holds := trivial
      moves := rfl }

/-- What a client on course loads. -/
theorem OnCourse.load
    (onCourse : crew.OnCourse client sound recipient initial moves) :
    (client.load crew.archive recipient).1 =
      .finished (initial.after (crew.completed recipient)) :=
  (client.load_eq_finished_iff ..).mpr ⟨onCourse.free, onCourse.stored⟩

/-- Three moves of a client on course are a round. -/
theorem OnCourse.completed_eq
    (onCourse : crew.OnCourse client sound recipient initial moves) :
    crew.completed recipient = moves / 3 := by
  have made := Client.OnCourse.moves onCourse
  have progress := (crew.phases recipient).progress_lt
  omega

/-- Behind complete rounds a client has no session in hand. -/
theorem OnCourse.between
    (onCourse :
      crew.OnCourse client sound recipient initial (3 * rounds)) :
    crew.phases recipient = .between := by
  have made := Client.OnCourse.moves onCourse
  have progress := (crew.phases recipient).progress_lt
  apply Phase.eq_between
  omega

end

/-- In any order of moves, a client completes a round with every third one, and loads so. -/
theorem load_run_start
    (clients : RecipientId → Client)
    {archive : Archive σ}
    (keeps : Storage.Keeps sound)
    (isSound : sound archive.backend)
    (loaded :
      ((clients recipient).load archive recipient).1 = .finished initial)
    (canStore : (clients recipient).CanStore initial.session)
    (schedule : List RecipientId) :
    let crew := (start archive).run clients schedule
    crew.completed recipient = schedule.count recipient / 3 ∧
      ((clients recipient).load crew.archive recipient).1 =
        .finished (initial.after (crew.completed recipient)) := by
  have onCourse :=
    onCourse_run clients (onCourse_start isSound loaded)
      (owns_start archive) keeps canStore schedule
  have completed := onCourse.completed_eq
  rw [Nat.zero_add] at completed
  exact ⟨completed, onCourse.load⟩

/-- Three moves behind each other are a round, once the session could be opened. -/
theorem round_eq_run
    (between : crew.phases recipient = .between)
    {session : Session}
    (opened :
      ((clients recipient).openSession crew.archive recipient).1 =
        .finished session) :
    (clients recipient).round recipient crew.archive =
      (true,
        (crew.run clients (List.replicate 3 recipient)).archive) := by
  obtain ⟨after, reopened⟩ :
      ∃ after,
        (clients recipient).openSession crew.archive recipient =
          (.finished session, after) :=
    ⟨_, Prod.ext opened rfl⟩
  simp only [Client.round, reopened, run, List.replicate,
    List.foldl_cons, List.foldl_nil, move, update_eq_functionUpdate,
    Function.update_self, between, Client.turn, Turn.ofOpening,
    Turn.archive_ofSaving]

theorem run_append
    (crew : Crew σ)
    (first second : List RecipientId) :
    crew.run clients (first ++ second) =
      (crew.run clients first).run clients second :=
  List.foldl_append ..

theorem owns_run
    (owns : crew.Owns)
    (schedule : List RecipientId) :
    (crew.run clients schedule).Owns := by
  induction schedule generalizing crew with
  | nil =>
      exact owns
  | cons mover rest inductionHypothesis =>
      exact inductionHypothesis (owns_move owns mover)

/-- Rounds behind each other are the moves of one client alone. -/
theorem rounds_eq_run
    (clients : RecipientId → Client)
    {done : Nat}
    (onCourse :
      crew.OnCourse (clients recipient) sound recipient initial
        (3 * done))
    (owns : crew.Owns)
    (keeps : Storage.Keeps sound)
    (canStore : (clients recipient).CanStore initial.session)
    (count : Nat) :
    (clients recipient).rounds recipient count crew.archive =
      (crew.run clients
        (List.replicate (3 * count) recipient)).archive := by
  induction count generalizing crew done with
  | zero =>
      rfl
  | succ count inductionHypothesis =>
      have moved :=
        onCourse_run clients onCourse owns keeps canStore
          (List.replicate 3 recipient)
      rw [List.count_replicate_self, ← Nat.mul_succ] at moved
      have first := round_eq_run onCourse.between
        (Client.OnCourse.opens onCourse)
      have later := inductionHypothesis moved (owns_run owns _)
      simp only [Client.rounds, first, later]
      rw [← run_append, List.replicate_append_replicate,
        Nat.mul_succ, Nat.add_comm]

/-- Rounds for one recipient after the other are one of the orders of moves. -/
theorem roundsForAll_eq_run
    {client : Client}
    {recipients : List RecipientId}
    (ready :
      ∀ recipient ∈ recipients,
        ∃ initial done,
          crew.OnCourse client sound recipient initial (3 * done) ∧
            client.CanStore initial.session)
    (owns : crew.Owns)
    (keeps : Storage.Keeps sound)
    (count : Nat) :
    client.roundsForAll count recipients crew.archive =
      (crew.run (fun _ => client)
        (recipients.flatMap (List.replicate (3 * count)))).archive := by
  induction recipients generalizing crew with
  | nil =>
      rfl
  | cons first rest inductionHypothesis =>
      obtain ⟨initial, done, onCourse, canStore⟩ :=
        ready first List.mem_cons_self
      have alone :=
        rounds_eq_run (fun _ => client) onCourse owns keeps
          canStore count
      rw [List.flatMap_cons, run_append, ← inductionHypothesis ?_
        (owns_run owns _), ← alone]
      · rfl
      · intro recipient member
        obtain ⟨initial, done, onCourse, canStore⟩ :=
          ready recipient (List.mem_cons_of_mem first member)
        have moved :=
          onCourse_run (fun _ => client) onCourse owns keeps
            canStore (List.replicate (3 * count) first)
        rw [List.count_replicate] at moved
        split at moved
        · rw [← Nat.mul_add] at moved
          exact ⟨initial, _, moved, canStore⟩
        · exact ⟨initial, _, moved, canStore⟩

/--
Whether a client carries out rounds for one recipient after the other, or the moves
of these rounds are made in any other order, each recipient's session is loaded alike.
-/
theorem load_run_eq_load_roundsForAll
    (keeps : Storage.Keeps sound)
    (client : Client)
    {archive : Archive σ}
    (isSound : sound archive.backend)
    {recipients : List RecipientId}
    (ready :
      ∀ recipient ∈ recipients,
        ∃ initial,
          (client.load archive recipient).1 = .finished initial ∧
            client.CanStore initial.session)
    (count : Nat)
    {schedule : List RecipientId}
    (reordered :
      schedule.Perm
        (recipients.flatMap (List.replicate (3 * count))))
    {recipient : RecipientId}
    (member : recipient ∈ recipients) :
    (client.load
        ((start archive).run (fun _ => client) schedule).archive
        recipient).1 =
      (client.load
        (client.roundsForAll count recipients archive) recipient).1 := by
  have starts :
      ∀ recipient ∈ recipients,
        ∃ initial done,
          (start archive).OnCourse client sound recipient initial
              (3 * done) ∧
            client.CanStore initial.session := by
    intro recipient member
    obtain ⟨initial, loaded, canStore⟩ := ready recipient member
    exact ⟨initial, 0, onCourse_start isSound loaded, canStore⟩
  have sequential :=
    roundsForAll_eq_run starts (owns_start archive) keeps count
  obtain ⟨initial, loaded, canStore⟩ := ready recipient member
  have loads (order : List RecipientId) :
      (client.load
          ((start archive).run (fun _ => client) order).archive
          recipient).1 =
        .finished (initial.after (order.count recipient / 3)) := by
    obtain ⟨completed, last⟩ :=
      load_run_start (fun _ => client) keeps isSound loaded canStore order
    rwa [completed] at last
  calc
    _ = .finished (initial.after (schedule.count recipient / 3)) :=
      loads schedule
    _ = _ := by
      rw [reordered.count_eq, ← loads, ← sequential]
      rfl

end Crew

/--
Clients share a backend that keeps its records, and each one carries out rounds for
a recipient of its own. Take a recipient whose session was loaded first and can be
stored by its client. In whatever order the clients make their moves, three of its
client's own are a round. No increment is lost: the session is loaded with the old
counter and the completed rounds as its counter, as long as that is a counter, and
with nothing else changed, from a record of the newest format once there was a round.
-/
theorem rounds_lose_no_increment
    {σ : Type}
    [Storage.Backend σ]
    {sound : σ → Prop}
    (keeps : Storage.Keeps sound)
    (clients : RecipientId → Client)
    (archive : Archive σ)
    (isSound : sound archive.backend)
    (schedule : List RecipientId)
    (recipient : RecipientId)
    (initial : Loaded)
    (loaded :
      ((clients recipient).load archive recipient).1 = .finished initial)
    (canStore : (clients recipient).CanStore initial.session) :
    let crew := (Crew.start archive).run clients schedule
    let count := crew.completed recipient
    (initial.isFresh = true → initial.session = .fresh recipient) ∧
      count = schedule.count recipient / 3 ∧
      ∃ last,
        ((clients recipient).load crew.archive recipient).1 =
            .finished last ∧
          (initial.session.counter.toNat + count < 4294967296 →
            last.session.counter.toNat =
              initial.session.counter.toNat + count) ∧
          last.session =
            { initial.session with counter := last.session.counter } ∧
          (count = 0 → last = initial) ∧
          (0 < count → last.status = .complete .v3) := by
  intro crew count
  have interpreted :=
    (((clients recipient).load_eq_finished_iff ..).mp loaded).2
  obtain ⟨completed, lastLoaded⟩ :=
    Crew.load_run_start clients keeps isSound loaded canStore schedule
  refine
    ⟨Client.session_of_isFresh interpreted, completed,
      initial.after count, lastLoaded, ?_, ?_, ?_, ?_⟩
  · intro bounded
    rw [Loaded.session_after]
    exact Session.toNat_counter_advanced bounded
  · rw [Loaded.session_after]
    rfl
  · intro none
    rw [none]
    rfl
  · intro some
    obtain ⟨before, isNext⟩ := Nat.exists_eq_add_of_lt some
    rw [isNext]
    rfl

/-- The session of recipient 5 in a record of the oldest format. -/
def oldestSession : Session :=
  { Session.fresh 5 with
    counter := 9
    id := { localFingerprint := [1], remoteFingerprint := [2] }
    key :=
      some
        { ids := { localId := 3, remoteId := 4 }
          cipher := [5]
          mac := [] } }

/-- A memory with nothing but that record. -/
def oldestMemory : Storage.Memory :=
  Storage.Memory.empty.put 5
    (Wire.octets
      [ .word 9,
        .blob [1],
        .blob [2],
        .blob (Wire.octets [.word 3, .word 4, .blob [5], .blob []]) ])

/-- Moves for two recipients, which take turns within their rounds. -/
def mixedMoves : List RecipientId :=
  [5, 6, 6, 5, 5, 5, 6, 5, 5]

/--
Two rounds are added to the counter of the oldest record in a memory, and one to
that of a recipient without a record in a folder.
-/
theorem rounds_lose_no_increment_mixedMoves :
    let client := Client.standard { bytes := [] }
    let inMemory :=
      (Crew.start (.ofBackend oldestMemory)).run (fun _ => client)
        mixedMoves
    let inFolder :=
      (Crew.start (.ofBackend rootFolder)).run (fun _ => client)
        mixedMoves
    (client.load inMemory.archive 5).1 =
        .finished
          { session := { oldestSession with counter := 11 }
            status := .complete .v3 } ∧
      (client.load inFolder.archive 6).1 =
        .finished
          { session := { Session.fresh 6 with counter := 1 }
            status := .complete .v3 } := by
  intro client inMemory inFolder
  have canStore (session : Session)
      (encodes :
        ∃ record,
          Record.encode client.sealer client.master session =
            .ok record) :
      client.CanStore session :=
    { encodes := encodes
      restores := fun key _ => Sealer.plain_restores _ key }
  constructor
  · obtain ⟨_, rounds, ⟨session, status⟩, loaded, counted, same, _, newest⟩ :=
      rounds_lose_no_increment Storage.Memory.keeps (fun _ => client)
        (.ofBackend oldestMemory) trivial mixedMoves 5
        { session := oldestSession, status := .complete (.unmarked 9) }
        rfl (canStore oldestSession ⟨_, rfl⟩)
    rw [rounds] at counted newest
    have counter : session.counter = 11 :=
      UInt32.toNat_inj.mp (counted (by decide))
    dsimp only at same newest
    rw [loaded, same, counter, newest (by decide)]
  · obtain ⟨_, rounds, ⟨session, status⟩, loaded, counted, same, _, newest⟩ :=
      rounds_lose_no_increment Storage.Folder.keeps (fun _ => client)
        (.ofBackend rootFolder) sound_rootFolder mixedMoves 6
        { session := .fresh 6, status := .fresh }
        (by decide +kernel) (canStore (.fresh 6) ⟨_, rfl⟩)
    rw [rounds] at counted newest
    have counter : session.counter = 1 :=
      UInt32.toNat_inj.mp (counted (by decide))
    dsimp only at same newest
    rw [loaded, same, counter, newest (by decide)]

end PeerSession
