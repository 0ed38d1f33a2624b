import PeerSession.Proofs.Archive.Unguarded
import PeerSession.Proofs.Record.RoundTrip
import PeerSession.Proofs.Storage.Mirroring

namespace PeerSession

/-!
# Folders in place of memory

Clients cannot tell a folder from a memory. Run after run they are answered the
same, and the files of the folder are the records of the memory. This holds for
as long as storage reports no error but that a record is missing, and it reports
none where the paths of the records are short enough.
-/

/-- The storage error that an answer reports; opening a session reports none. -/
def OperationAnswer.storageError? :
    OperationAnswer →
    Option Storage.Error
  | .loaded (.finished result) =>
      match result.fault? with
      | some (.read error) => some error
      | _ => none
  | .saved (.finished (.error (.save _ error))) => some error
  | .deleted (.finished (.error (.delete _ error))) => some error
  | _ => none

/-- An answer reports no other storage error than that something is missing. -/
def OperationAnswer.Undisturbed (answer : OperationAnswer) : Prop :=
  ∀ error ∈ answer.storageError?, error.kind = .notFound

instance (answer : OperationAnswer) : Decidable answer.Undisturbed :=
  inferInstanceAs
    (Decidable
      (∀ error ∈ answer.storageError?, error.kind = .notFound))

theorem OperationAnswer.undisturbed_of_none
    {answer : OperationAnswer}
    (unreported : answer.storageError? = none) :
    answer.Undisturbed := by
  intro error reported
  rw [unreported] at reported
  cases reported

theorem OperationAnswer.Undisturbed.not_too_long
    {answer : OperationAnswer}
    (undisturbed : answer.Undisturbed)
    (reported :
      answer.storageError? = some Storage.FileTree.nameTooLong) :
    False := by
  have missing := undisturbed _ reported
  cases missing

namespace Storage

/-- Put records in place one after the other. -/
def Folder.plant
    (folder : Folder)
    (planted : List (RecipientId × Bytes)) :
    Folder :=
  planted.foldl (fun folder entry => folder.put entry.1 entry.2) folder

/-- Put records in place one after the other. -/
def Memory.plant
    (memory : Memory)
    (planted : List (RecipientId × Bytes)) :
    Memory :=
  planted.foldl (fun memory entry => memory.put entry.1 entry.2) memory

namespace Folder

theorem path_plant
    (folder : Folder)
    (planted : List (RecipientId × Bytes)) :
    (folder.plant planted).path = folder.path := by
  induction planted generalizing folder with
  | nil =>
      rfl
  | cons entry rest inductionHypothesis =>
      exact (inductionHypothesis (folder.put entry.1 entry.2)).trans
        (folder.path_reply _)

/-- Records put in place in both are mirrored. -/
theorem Mirrors.plant
    {path : Path}
    {id : DirectoryId}
    {folder : Folder}
    {memory : Memory}
    (mirrors : Mirrors path id folder memory)
    {planted : List (RecipientId × Bytes)}
    (fits :
      ∀ entry ∈ planted,
        (path.child entry.1.recordName).fits = true) :
    Mirrors path id (folder.plant planted) (memory.plant planted) := by
  induction planted generalizing folder memory with
  | nil =>
      exact mirrors
  | cons entry rest inductionHypothesis =>
      have reachable : (folder.pathFor entry.1).fits = true := by
        unfold pathFor
        rw [mirrors.samePath]
        exact fits entry (by simp)
      have written :=
        (mirrors.write reachable entry.2 memory.writes).2
      exact inductionHypothesis written
        fun later isLater => fits later (by simp [isLater])

/-- Records put in place in a folder that was just opened are mirrored in memory. -/
theorem exists_mirrors_plant
    {tree : FileTree}
    {base : Path}
    {directory : String}
    {opened : Folder}
    (wellFormed : tree.WellFormed)
    (success : open? tree base directory = .ok opened)
    (vacant :
      ∀ entry ∈ opened.listing,
        ∀ recipient : RecipientId, entry.1 ≠ recipient.recordName)
    {planted : List (RecipientId × Bytes)}
    (fits :
      ∀ entry ∈ planted, (opened.pathFor entry.1).fits = true) :
    ∃ id,
      (opened.plant planted).Mirrors opened.path id
        (Memory.empty.plant planted) := by
  obtain ⟨id, reaches⟩ := reaches_open wellFormed success
  exact ⟨id, (mirrors_empty reaches vacant).plant fits⟩

end Folder

end Storage

namespace Client

/-- A missing record makes a fresh session, whatever the error says. -/
theorem interpret_notFound
    (client : Client)
    (recipient : RecipientId)
    {error : Storage.Error}
    (missing : error.kind = .notFound) :
    client.interpret recipient (.error error) =
      .ok { session := .fresh recipient, status := .fresh } := by
  simp only [interpret, Loaded.ofReadError, missing, if_true]

variable {path : Storage.Path} {id : Storage.DirectoryId}
  {folder : Storage.Folder} {memory : Storage.Memory}

theorem interpret_mirrors
    (client : Client)
    (mirrors : folder.Mirrors path id memory)
    {recipient : RecipientId}
    (reachable : (folder.pathFor recipient).fits = true) :
    client.interpret recipient (folder.read recipient).1 =
      client.interpret recipient (memory.read recipient).1 := by
  cases stored : memory.records recipient with
  | some record =>
      rw [mirrors.read_stored stored]
      simp only [Storage.Memory.read, stored]
  | none =>
      rw [mirrors.read_absent reachable stored]
      simp only [Storage.Memory.read, stored]
      rw [client.interpret_notFound recipient rfl,
        client.interpret_notFound recipient rfl]

theorem deleted_notFound
    (recipient : RecipientId)
    {error : Storage.Error}
    (missing : error.kind = .notFound) :
    deleted recipient (.error error) = .ok () := by
  simp only [deleted, missing, if_true]

/-- Deleting a record that can be reached succeeds in both, whether it is there or not. -/
theorem deleted_mirrors
    (mirrors : folder.Mirrors path id memory)
    {recipient : RecipientId}
    (reachable : (folder.pathFor recipient).fits = true) :
    deleted recipient (folder.delete recipient).1 =
        deleted recipient (memory.delete recipient).1 ∧
      (folder.delete recipient).2.Mirrors path id
        (memory.delete recipient).2 := by
  cases stored : memory.records recipient with
  | some record =>
      obtain ⟨answer, after⟩ := mirrors.delete_stored stored
      rw [answer]
      simp only [Storage.Memory.delete, stored]
      exact ⟨trivial, after⟩
  | none =>
      rw [mirrors.delete_absent reachable stored]
      simp only [Storage.Memory.delete, stored]
      rw [deleted_notFound recipient rfl, deleted_notFound recipient rfl]
      exact ⟨rfl, mirrors⟩

/-- Where records can be reached, a folder answers as a memory and goes on mirroring it. -/
theorem performOn_reachable
    (client : Client)
    (mirrors : folder.Mirrors path id memory)
    {operation : Operation}
    (reachable : (folder.pathFor operation.recipient).fits = true) :
    (client.performOn folder operation).1 =
        (client.performOn memory operation).1 ∧
      (client.performOn folder operation).2.Mirrors path id
        (client.performOn memory operation).2 := by
  cases operation with
  | load recipient =>
      simp only [Operation.recipient] at reachable
      have interpreted := client.interpret_mirrors mirrors reachable
      have unchanged := memory.read_snd recipient
      rw [performOn_load, performOn_load]
      simp only [Storage.Backend.read, interpreted, unchanged]
      exact ⟨trivial, mirrors⟩
  | openSession recipient =>
      simp only [Operation.recipient] at reachable
      have interpreted := client.interpret_mirrors mirrors reachable
      have unchanged := memory.read_snd recipient
      rw [performOn_openSession, performOn_openSession]
      simp only [Storage.Backend.read, interpreted, unchanged]
      exact ⟨trivial, mirrors⟩
  | save session =>
      cases encoded :
          Record.encode client.sealer client.master session with
      | error error =>
          rw [performOn_save_error folder encoded,
            performOn_save_error memory encoded]
          exact ⟨rfl, mirrors⟩
      | ok record =>
          simp only [Operation.recipient] at reachable
          obtain ⟨answer, after⟩ := mirrors.write reachable record _
          rw [performOn_save_ok folder encoded,
            performOn_save memory encoded]
          simp only [Storage.Backend.write, answer]
          exact ⟨rfl, after⟩
  | delete recipient =>
      simp only [Operation.recipient] at reachable
      obtain ⟨answer, after⟩ := deleted_mirrors mirrors reachable
      rw [performOn_delete, performOn_delete]
      simp only [Storage.Backend.delete, answer]
      exact ⟨trivial, after⟩
  | contains recipient =>
      have answer := mirrors.contains recipient
      exact ⟨congrArg OperationAnswer.contained answer, mirrors⟩

/--
Where the path of a record is too long, an operation reports this or it answers
as without a record.
-/
theorem performOn_too_long
    (client : Client)
    (mirrors : folder.Mirrors path id memory)
    {operation : Operation}
    (tooLong : (folder.pathFor operation.recipient).fits = false)
    (undisturbed :
      (client.performOn folder operation).1.Undisturbed) :
    (client.performOn folder operation).1 =
        (client.performOn memory operation).1 ∧
      (client.performOn folder operation).2.Mirrors path id
        (client.performOn memory operation).2 := by
  have absent := mirrors.absent_of_too_long tooLong
  cases operation with
  | load recipient =>
      simp only [Operation.recipient] at tooLong
      have failed := Storage.Folder.read_too_long tooLong
      refine (undisturbed.not_too_long ?_).elim
      rw [performOn_load]
      simp only [Storage.Backend.read, failed]
      rfl
  | openSession recipient =>
      simp only [Operation.recipient] at tooLong absent
      have failed := Storage.Folder.read_too_long tooLong
      rw [performOn_openSession, performOn_openSession]
      simp only [Storage.Backend.read, Storage.Memory.read, failed, absent]
      exact ⟨rfl, mirrors⟩
  | save session =>
      cases encoded :
          Record.encode client.sealer client.master session with
      | error error =>
          rw [performOn_save_error folder encoded,
            performOn_save_error memory encoded]
          exact ⟨rfl, mirrors⟩
      | ok record =>
          simp only [Operation.recipient] at tooLong
          have failed := Storage.Folder.write_too_long tooLong record
          refine (undisturbed.not_too_long ?_).elim
          rw [performOn_save_ok folder encoded]
          simp only [Storage.Backend.write, failed]
          rfl
  | delete recipient =>
      simp only [Operation.recipient] at tooLong
      have failed := Storage.Folder.delete_too_long tooLong
      refine (undisturbed.not_too_long ?_).elim
      rw [performOn_delete]
      simp only [Storage.Backend.delete, failed]
      rfl
  | contains recipient =>
      have answer := mirrors.contains recipient
      exact ⟨congrArg OperationAnswer.contained answer, mirrors⟩

/-- A run that is not disturbed answers the same on both and keeps them alike. -/
theorem runOn_mirrors
    (mirrors : folder.Mirrors path id memory)
    (steps : List (Client × Operation))
    (undisturbed :
      ∀ answer ∈ (runOn folder steps).1, answer.Undisturbed) :
    (runOn folder steps).1 = (runOn memory steps).1 ∧
      (runOn folder steps).2.Mirrors path id (runOn memory steps).2 := by
  induction steps generalizing folder memory with
  | nil =>
      exact ⟨rfl, mirrors⟩
  | cons step rest inductionHypothesis =>
      obtain ⟨client, operation⟩ := step
      obtain ⟨atFirst, afterwards⟩ :=
        List.forall_mem_cons.mp undisturbed
      have performed :
          (client.performOn folder operation).1 =
              (client.performOn memory operation).1 ∧
            (client.performOn folder operation).2.Mirrors path id
              (client.performOn memory operation).2 := by
        cases reachable :
            (folder.pathFor operation.recipient).fits with
        | true =>
            exact client.performOn_reachable mirrors reachable
        | false =>
            exact client.performOn_too_long mirrors reachable atFirst
      obtain ⟨answer, between⟩ := performed
      obtain ⟨answers, last⟩ := inductionHypothesis between afterwards
      simp only [runOn]
      rw [answer, answers]
      exact ⟨rfl, last⟩

/-- Storage in memory reports no error. -/
theorem undisturbed_performOn
    (client : Client)
    (memory : Storage.Memory)
    (operation : Operation) :
    (client.performOn memory operation).1.Undisturbed := by
  apply OperationAnswer.undisturbed_of_none
  cases operation with
  | load recipient =>
      rw [performOn_load]
      cases stored : memory.records recipient with
      | none =>
          simp only [Storage.Backend.read, Storage.Memory.read, stored]
          rw [client.interpret_notFound recipient rfl]
          rfl
      | some record =>
          simp only [Storage.Backend.read, Storage.Memory.read, stored,
            interpret, Loaded.ofRecord]
          -- What stops the reading of a record is the record and not the storage.
          split <;> rfl
  | openSession recipient =>
      rfl
  | save session =>
      cases encoded :
          Record.encode client.sealer client.master session with
      | error error =>
          rw [performOn_save_error memory encoded]
          rfl
      | ok record =>
          rw [performOn_save memory encoded]
          rfl
  | delete recipient =>
      rw [performOn_delete]
      cases stored : memory.records recipient with
      | none =>
          simp only [Storage.Backend.delete, Storage.Memory.delete, stored]
          rw [deleted_notFound recipient rfl]
          rfl
      | some record =>
          simp only [Storage.Backend.delete, Storage.Memory.delete, stored]
          rfl
  | contains recipient =>
      rfl

/-- Nothing but too long a path disturbs a run over a folder. -/
theorem undisturbed_runOn
    (mirrors : folder.Mirrors path id memory)
    {steps : List (Client × Operation)}
    (reachable :
      ∀ step ∈ steps,
        (path.child step.2.recipient.recordName).fits = true) :
    ∀ answer ∈ (runOn folder steps).1, answer.Undisturbed := by
  induction steps generalizing folder memory with
  | nil =>
      intro answer isAnswer
      cases isAnswer
  | cons step rest inductionHypothesis =>
      obtain ⟨client, operation⟩ := step
      obtain ⟨fits, afterwards⟩ := List.forall_mem_cons.mp reachable
      rw [← mirrors.samePath] at fits
      obtain ⟨answer, between⟩ := client.performOn_reachable mirrors fits
      have atFirst := client.undisturbed_performOn memory operation
      rw [← answer] at atFirst
      have later := inductionHypothesis between afterwards
      exact List.forall_mem_cons.mpr ⟨atFirst, later⟩

end Client

/-- Archives of which one mirrors the other answer the same run alike, and go on like this. -/
theorem Archive.run_mirrors
    {path : Storage.Path}
    {id : Storage.DirectoryId}
    {inFolder : Archive Storage.Folder}
    {inMemory : Archive Storage.Memory}
    {steps : List (Client × Operation)}
    (folderFree : inFolder.mutexes.AllFree)
    (memoryFree : inMemory.mutexes.AllFree)
    (mirrors : inFolder.backend.Mirrors path id inMemory.backend)
    (undisturbed :
      ∀ answer ∈ (inFolder.run steps).1, answer.Undisturbed) :
    (inFolder.run steps).1 = (inMemory.run steps).1 ∧
      (inFolder.run steps).2.backend.Mirrors path id
        (inMemory.run steps).2.backend := by
  obtain ⟨_, _, ranInFolder⟩ := inFolder.run_of_allFree folderFree steps
  obtain ⟨_, _, ranInMemory⟩ := inMemory.run_of_allFree memoryFree steps
  rw [ranInFolder] at undisturbed ⊢
  rw [ranInMemory]
  exact Client.runOn_mirrors mirrors steps undisturbed

/--
Wherever a folder is opened and whatever records are put in place there, a run
over it that is not disturbed answers what the run over a memory of the same
records answers. In the end a recipient's file is there with exactly the octets
of its record in the memory, and is not there without one.
-/
theorem folder_run_eq_memory_run
    {tree : Storage.FileTree}
    {base : Storage.Path}
    {directory : String}
    {opened : Storage.Folder}
    {inFolder : Archive Storage.Folder}
    {inMemory : Archive Storage.Memory}
    {planted : List (RecipientId × Bytes)}
    {steps : List (Client × Operation)}
    (wellFormed : tree.WellFormed)
    (success : Storage.Folder.open? tree base directory = .ok opened)
    (vacant :
      ∀ entry ∈ opened.listing,
        ∀ recipient : RecipientId, entry.1 ≠ recipient.recordName)
    (folderPlanted : inFolder.backend = opened.plant planted)
    (memoryPlanted :
      inMemory.backend = Storage.Memory.empty.plant planted)
    (inPlace :
      ∀ entry ∈ planted, inFolder.backend.contains entry.1 = true)
    (folderFree : inFolder.mutexes.AllFree)
    (memoryFree : inMemory.mutexes.AllFree)
    (undisturbed :
      ∀ answer ∈ (inFolder.run steps).1, answer.Undisturbed) :
    (inFolder.run steps).1 = (inMemory.run steps).1 ∧
      ∀ recipient,
        let file := (opened.pathFor recipient).parts
        let last := (inFolder.run steps).2.backend.tree
        let record := (inMemory.run steps).2.backend.records recipient
        (∀ data, record = some data → last.readFile file = .ok data) ∧
          (record = none → last.hasFile file = false) := by
  have fits :
      ∀ entry ∈ planted, (opened.pathFor entry.1).fits = true := by
    intro entry isPlanted
    have contained := inPlace entry isPlanted
    rw [folderPlanted, Storage.Folder.contains,
      Storage.Folder.pathFor, opened.path_plant] at contained
    exact (Bool.and_eq_true_iff.mp contained).1
  obtain ⟨id, mirrors⟩ :=
    Storage.Folder.exists_mirrors_plant wellFormed success vacant fits
  rw [← folderPlanted, ← memoryPlanted] at mirrors
  obtain ⟨answers, last⟩ :=
    Archive.run_mirrors folderFree memoryFree mirrors undisturbed
  exact ⟨answers, last.files⟩

/-- A path to a directory that need not be there yet. -/
def dataPath : Storage.Path where
  parts := [.name "data"]
  octets := 5
  slashed := false

/-- A new directory in a new one, in a file tree without anything else. -/
def newFolder : Storage.Folder where
  tree :=
    { directories :=
        #[{ parent := 0, entries := [("data", .directory 1)] },
          { parent := 0, entries := [("db", .directory 2)] },
          { parent := 1, entries := [] }] }
  path :=
    { parts := [.name "data", .name "db"]
      octets := 8
      slashed := false }

/-- A record that is no session, and one that is longer than that of the busy session. -/
def oddRecords : List (RecipientId × Bytes) :=
  [ (23, [1, 2, 3]),
    (7, List.replicate 300 1) ]

theorem join_dataPath : dataPath.join "db" = newFolder.path := by
  have relative : "db".startsWith "/" = false := by
    simp
  have whole : "db".splitOn "/" = ["db"] := by
    rw [String.splitOn, if_neg (by decide)]
    iterate 2
      rw [String.splitOnAux, if_neg (by decide), if_neg (by decide)]
    rw [String.splitOnAux, if_pos (by decide)]
    rfl
  rw [Storage.Path.join, relative, Storage.PathPart.ofPathText, whole]
  decide +kernel

theorem open_newFolder :
    Storage.Folder.open? .empty dataPath "db" = .ok newFolder := by
  have valid : "db".contains '\x00' = false := by
    simp
  have fits : newFolder.path.fits = true := by
    decide
  have made :
      Storage.FileTree.empty.makeDirectories newFolder.path.parts =
        .ok newFolder.tree :=
    rfl
  simp only [Storage.Folder.open?, valid, join_dataPath, fits, made]
  rfl

/-- The odd records in the new folder. -/
def oddFolder : Archive Storage.Folder where
  backend := newFolder.plant oddRecords
  mutexes := .unused

/-- The odd records in memory. -/
def oddMemory : Archive Storage.Memory where
  backend := Storage.Memory.empty.plant oddRecords
  mutexes := .unused

/-- One of the odd records is loaded and deleted, the other one is replaced. -/
def replacingSteps : List (Client × Operation) :=
  let client := Client.standard { bytes := [1] }
  [ (client, .load 23),
    (client, .delete 23),
    (client, .load 23),
    (client, .save Record.busySession),
    (client, .openSession 7) ]

/-- The folder answers as the memory, and nothing of the longer record is left over. -/
theorem folder_run_eq_memory_run_replacingSteps :
    let last := (oddFolder.run replacingSteps).2.backend.tree
    (oddFolder.run replacingSteps).1 = (oddMemory.run replacingSteps).1 ∧
      last.hasFile (newFolder.pathFor 23).parts = false ∧
      ∃ record,
        Record.encode .plain { bytes := [1] } Record.busySession =
            .ok record ∧
          last.readFile (newFolder.pathFor 7).parts = .ok record := by
  intro last
  have vacant :
      ∀ entry ∈ newFolder.listing,
        ∀ recipient : RecipientId, entry.1 ≠ recipient.recordName := by
    have unused : newFolder.listing = [] := by
      decide +kernel
    intro entry isListed
    rw [unused] at isListed
    cases isListed
  have inPlace :
      ∀ entry ∈ oddRecords, oddFolder.backend.contains entry.1 = true := by
    decide +kernel
  have undisturbed :
      ∀ answer ∈ (oddFolder.run replacingSteps).1,
        answer.Undisturbed := by
    decide +kernel
  have folderPlanted :
      oddFolder.backend = newFolder.plant oddRecords :=
    rfl
  have memoryPlanted :
      oddMemory.backend = Storage.Memory.empty.plant oddRecords :=
    rfl
  obtain ⟨answers, files⟩ :=
    folder_run_eq_memory_run Storage.FileTree.wellFormed_empty
      open_newFolder vacant folderPlanted memoryPlanted inPlace Guard.Mutexes.allFree_unused
      Guard.Mutexes.allFree_unused undisturbed
  have gone :
      (oddMemory.run replacingSteps).2.backend.records 23 = none := by
    decide +kernel
  have encodes :
      ∃ record,
        Record.encode .plain { bytes := [1] } Record.busySession =
          .ok record :=
    ⟨_, rfl⟩
  obtain ⟨record, encoded⟩ := encodes
  have replaced :
      (oddMemory.run replacingSteps).2.backend.records 7 =
        (Record.encode .plain { bytes := [1] }
          Record.busySession).toOption := by
    decide +kernel
  rw [encoded] at replaced
  exact ⟨answers, (files 23).2 gone, record, encoded,
    (files 7).1 record replaced⟩

/--
Where the paths of all records are short enough, nothing disturbs a run over a folder. It
answers what the run over a memory of the same records answers, and leaves the same
records.
-/
theorem folder_run_eq_memory_run_of_fits
    {tree : Storage.FileTree}
    {base : Storage.Path}
    {directory : String}
    {opened : Storage.Folder}
    {inFolder : Archive Storage.Folder}
    {inMemory : Archive Storage.Memory}
    {planted : List (RecipientId × Bytes)}
    {steps : List (Client × Operation)}
    (wellFormed : tree.WellFormed)
    (success : Storage.Folder.open? tree base directory = .ok opened)
    (vacant :
      ∀ entry ∈ opened.listing,
        ∀ recipient : RecipientId, entry.1 ≠ recipient.recordName)
    (folderPlanted : inFolder.backend = opened.plant planted)
    (memoryPlanted :
      inMemory.backend = Storage.Memory.empty.plant planted)
    (plantedFit :
      ∀ entry ∈ planted, (opened.pathFor entry.1).fits = true)
    (stepsFit :
      ∀ step ∈ steps, (opened.pathFor step.2.recipient).fits = true)
    (folderFree : inFolder.mutexes.AllFree)
    (memoryFree : inMemory.mutexes.AllFree) :
    (∀ answer ∈ (inFolder.run steps).1, answer.Undisturbed) ∧
      (inFolder.run steps).1 = (inMemory.run steps).1 ∧
      ∀ recipient,
        let file := (opened.pathFor recipient).parts
        let last := (inFolder.run steps).2.backend.tree
        let record := (inMemory.run steps).2.backend.records recipient
        (∀ data, record = some data → last.readFile file = .ok data) ∧
          (record = none → last.hasFile file = false) := by
  obtain ⟨id, mirrors⟩ :=
    Storage.Folder.exists_mirrors_plant wellFormed success vacant plantedFit
  rw [← folderPlanted, ← memoryPlanted] at mirrors
  have undisturbed :
      ∀ answer ∈ (inFolder.run steps).1, answer.Undisturbed := by
    obtain ⟨_, _, ran⟩ := inFolder.run_of_allFree folderFree steps
    rw [ran]
    exact Client.undisturbed_runOn mirrors stepsFit
  obtain ⟨answers, last⟩ :=
    Archive.run_mirrors folderFree memoryFree mirrors undisturbed
  exact ⟨undisturbed, answers, last.files⟩

end PeerSession
