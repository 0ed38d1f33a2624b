import PeerSession.Proofs.Storage.Keeping

namespace PeerSession.Storage

/-!
# Tasks in stages

Reading a record and removing it each take one step. Replacing it takes three: its
file is opened, or made empty, then its front is written over, then its length is
set. In between, the file is neither what it was nor what it will be. A task that
nothing interferes with does in stages what the folder does at once.
-/

namespace Folder

/-- Open the file of a record, making an empty one where nothing stands. -/
def openRecord
    (folder : Folder)
    (recipient : RecipientId) :
    Except Error (Place × Folder) :=
  match folder.reach recipient folder.tree.openFile with
  | .ok (place, opened) => .ok (place, { tree := opened, path := folder.path })
  | .error error => .error error

/-- Change the file at a place, if there is one. -/
def changeAt
    (folder : Folder)
    (place : Place)
    (change : Bytes → Bytes) :
    Folder where
  tree := folder.tree.changeFile place change
  path := folder.path

/-- Writing a record opens its file, writes over its front and sets its length. -/
theorem write_eq_changeAt
    (folder : Folder)
    (recipient : RecipientId)
    (data : Bytes) :
    folder.write recipient data =
      match folder.openRecord recipient with
      | .ok (place, opened) =>
          (.ok (),
            (opened.changeAt place fun old => overwriteFront old data).changeAt
              place (setLength data.length))
      | .error error => (.error error, folder) := by
  cases fits : (folder.pathFor recipient).fits with
  | true =>
      simp only [write, openRecord, reach_of_fits fits, FileTree.writeFile]
      cases folder.tree.openFile (folder.pathFor recipient).parts <;> rfl
  | false =>
      simp only [write, openRecord, reach_too_long fits]
      rfl

end Folder

/-- An answer, unless the path of the record is too long. -/
def unlessTooLong
    {α : Type}
    (fits : Bool)
    (answer : Except Error α) :
    Except Error α :=
  if fits then answer else .error FileTree.nameTooLong

/-- What can be done with a recipient's record. -/
inductive Task where
  | load
  | delete
  | save (data : Bytes)
  deriving DecidableEq, Repr

/-- What came of a task. -/
inductive Effect where
  | loaded (answer : Except Error Bytes)
  | deleted (answer : Except Error Unit)
  | saved (data : Bytes) (answer : Except Error Unit)
  deriving DecidableEq

/-- What is to be done next for a task. -/
inductive Stage where
  | reading
  | removing
  | opening (data : Bytes)
  | overwriting (place : Place) (data : Bytes)
  | cutting (place : Place) (data : Bytes)
  | ended (effect : Effect)
  deriving DecidableEq

namespace Task

/-- What is to be done first. -/
def first : Task → Stage
  | .load => .reading
  | .delete => .removing
  | .save data => .opening data

/-- Carry out a task at once. -/
def perform
    (folder : Folder)
    (recipient : RecipientId) :
    Task →
    Effect × Folder
  | .load =>
      (.loaded (folder.read recipient).1, (folder.read recipient).2)
  | .delete =>
      (.deleted (folder.delete recipient).1, (folder.delete recipient).2)
  | .save data =>
      (.saved data (folder.write recipient data).1,
        (folder.write recipient data).2)

end Task

namespace Effect

/-- What a task leaves in place of the record, unless it leaves it as it was. -/
def leaves? : Effect → Option (Option Bytes)
  | .loaded _ => none
  | .deleted _ => some none
  | .saved data (.ok ()) => some (some data)
  | .saved _ (.error _) => none

/-- What a task answers, given whether the path fits and the record before it. -/
def Answers
    (fits : Bool)
    (before : Option Bytes) :
    Effect →
    Prop
  | .loaded answer =>
      answer =
        unlessTooLong fits (before.elim (.error FileTree.noSuchFile) .ok)
  | .deleted answer =>
      answer =
        unlessTooLong fits
          (before.elim (.error FileTree.noSuchFile) fun _ => .ok ())
  | .saved _ answer => answer = unlessTooLong fits (.ok ())

end Effect

namespace Stage

/-- Take the next step of a task; nothing is left to be done when it has ended. -/
def step
    (folder : Folder)
    (recipient : RecipientId) :
    Stage →
    Stage × Folder
  | .reading =>
      (.ended (.loaded (folder.read recipient).1), (folder.read recipient).2)
  | .removing =>
      (.ended (.deleted (folder.delete recipient).1),
        (folder.delete recipient).2)
  | .opening data =>
      match folder.openRecord recipient with
      | .ok (place, opened) => (.overwriting place data, opened)
      | .error error => (.ended (.saved data (.error error)), folder)
  | .overwriting place data =>
      (.cutting place data,
        folder.changeAt place fun old => overwriteFront old data)
  | .cutting place data =>
      (.ended (.saved data (.ok ())),
        folder.changeAt place (setLength data.length))
  | .ended effect => (.ended effect, folder)

/-- Take several steps behind each other. -/
def steps
    (recipient : RecipientId) :
    Nat →
    Stage × Folder →
    Stage × Folder
  | 0, reached => reached
  | count + 1, (stage, folder) =>
      steps recipient count (stage.step folder recipient)

/-- Three steps behind each other complete any task. -/
theorem steps_first
    (folder : Folder)
    (recipient : RecipientId)
    (task : Task) :
    steps recipient 3 (task.first, folder) =
      (.ended (task.perform folder recipient).1,
        (task.perform folder recipient).2) := by
  cases task with
  | load =>
      rfl
  | delete =>
      rfl
  | save data =>
      simp only [Task.first, Task.perform, steps, step,
        folder.write_eq_changeAt]
      cases folder.openRecord recipient <;> rfl

/-- What stands in place of the record at a stage, given what stood there before. -/
def contents (before : Option Bytes) : Stage → Option Bytes
  | .reading => before
  | .removing => before
  | .opening _ => before
  | .overwriting _ _ => some (before.getD [])
  | .cutting _ data => some (overwriteFront (before.getD []) data)
  | .ended effect => effect.leaves?.getD before

/-- A stage that a task can be at, given the record before it. -/
def Follows
    (before : Option Bytes)
    (place : Place)
    (fits : Bool) :
    Stage →
    Prop
  | .reading => True
  | .removing => True
  | .opening _ => True
  | .overwriting opened _ => opened = place
  | .cutting opened _ => opened = place
  | .ended effect => effect.Answers fits before

theorem contents_first
    (task : Task)
    (before : Option Bytes) :
    task.first.contents before = before := by
  cases task <;> rfl

theorem follows_first
    (task : Task)
    (before : Option Bytes)
    (place : Place)
    (fits : Bool) :
    task.first.Follows before place fits := by
  cases task <;> trivial

end Stage

namespace Folder.Mirrors

variable
  {path : Path}
  {id : DirectoryId}
  {folder : Folder}
  {memory : Memory}
  {recipient : RecipientId}

/-- A memory whose records are the same is mirrored as well. -/
theorem same
    (mirrors : Mirrors path id folder memory)
    {contents : Option Bytes}
    (unchanged : contents = memory.records recipient) :
    Mirrors path id folder
      { records := update memory.records recipient contents
        writes := memory.writes } := by
  rw [unchanged, update_eq_functionUpdate, Function.update_eq_self]
  exact mirrors

/-- Opening leaves the old contents, or makes an empty file. -/
theorem openRecord
    (mirrors : Mirrors path id folder memory)
    (fits : (folder.pathFor recipient).fits = true) :
    ∃ opened,
      folder.openRecord recipient = .ok (recordPlace id recipient, opened) ∧
        Mirrors path id opened
          { records :=
              update memory.records recipient
                (some ((memory.records recipient).getD []))
            writes := memory.writes } := by
  obtain ⟨opened, isOpen, fileChange⟩ :=
    FileTree.openFile_at mirrors.reaches.known (mirrors.records recipient)
      (mirrors.find_record recipient)
  refine ⟨{ tree := opened, path := folder.path }, ?_,
    mirrors.change fits fileChange memory.writes⟩
  rw [Folder.openRecord, reach_of_fits fits, isOpen]

/-- Changing a file that is there changes the record. -/
theorem changeAt
    (mirrors : Mirrors path id folder memory)
    {record : Bytes}
    (stored : memory.records recipient = some record)
    (change : Bytes → Bytes) :
    Mirrors path id
      (folder.changeAt (recordPlace id recipient) change)
      { records := update memory.records recipient (some (change record))
        writes := memory.writes } :=
  mirrors.change (mirrors.fits recipient record stored)
    (FileTree.fileChange_changeFile mirrors.reaches.known
      (mirrors.stands stored) change)
    memory.writes

/-- A record is gone after deleting, whether it was there or not. -/
theorem delete
    (mirrors : Mirrors path id folder memory)
    (recipient : RecipientId) :
    Mirrors path id
      (folder.delete recipient).2
      { records := update memory.records recipient none
        writes := memory.writes } := by
  cases stored : memory.records recipient with
  | some record =>
      exact (mirrors.delete_stored stored).2
  | none =>
      have unchanged : (folder.delete recipient).2 = folder := by
        cases fits : (folder.pathFor recipient).fits with
        | true =>
            rw [mirrors.delete_absent fits stored]
        | false =>
            rw [Folder.delete, reach_too_long fits]
            rfl
      rw [unchanged]
      exact mirrors.same stored.symm

theorem read_eq_unlessTooLong
    (mirrors : Mirrors path id folder memory)
    (recipient : RecipientId) :
    (folder.read recipient).1 =
      unlessTooLong (folder.pathFor recipient).fits
        ((memory.records recipient).elim (.error FileTree.noSuchFile)
          .ok) := by
  cases fits : (folder.pathFor recipient).fits with
  | true =>
      exact mirrors.read_fst fits
  | false =>
      exact read_too_long fits

theorem delete_eq_unlessTooLong
    (mirrors : Mirrors path id folder memory)
    (recipient : RecipientId) :
    (folder.delete recipient).1 =
      unlessTooLong (folder.pathFor recipient).fits
        ((memory.records recipient).elim (.error FileTree.noSuchFile)
          fun _ => .ok ()) := by
  cases fits : (folder.pathFor recipient).fits with
  | false =>
      exact delete_too_long fits
  | true =>
      cases stored : memory.records recipient with
      | some record =>
          exact (mirrors.delete_stored stored).1
      | none =>
          rw [mirrors.delete_absent fits stored]
          rfl

/-- A step of a task leads from one of its stages to the next. -/
theorem step
    (mirrors : Mirrors path id folder memory)
    {before : Option Bytes}
    {stage : Stage}
    (stands : memory.records recipient = stage.contents before)
    (follows :
      stage.Follows before (recordPlace id recipient)
        (path.child recipient.recordName).fits) :
    let next := stage.step folder recipient
    Mirrors path id next.2
        { records :=
            update memory.records recipient (next.1.contents before)
          writes := memory.writes } ∧
      next.1.Follows before (recordPlace id recipient)
        (path.child recipient.recordName).fits := by
  have samePath :
      path.child recipient.recordName = folder.pathFor recipient := by
    rw [pathFor, mirrors.samePath]
  rw [samePath] at follows ⊢
  cases stage with
  | reading =>
      have answer := mirrors.read_eq_unlessTooLong recipient
      rw [stands] at answer
      exact ⟨mirrors.same stands.symm, answer⟩
  | removing =>
      have answer := mirrors.delete_eq_unlessTooLong recipient
      rw [stands] at answer
      exact ⟨mirrors.delete recipient, answer⟩
  | opening data =>
      cases fits : (folder.pathFor recipient).fits with
      | true =>
          obtain ⟨opened, isOpen, mirrored⟩ := mirrors.openRecord fits
          rw [stands] at mirrored
          simp only [Stage.step, isOpen]
          exact ⟨mirrored, rfl⟩
      | false =>
          have refused :
              folder.openRecord recipient =
                .error FileTree.nameTooLong := by
            rw [Folder.openRecord, reach_too_long fits]
          simp only [Stage.step, refused]
          exact ⟨mirrors.same stands.symm, rfl⟩
  | overwriting place data =>
      cases follows
      exact ⟨mirrors.changeAt stands fun old => overwriteFront old data, rfl⟩
  | cutting place data =>
      cases follows
      have cut := mirrors.changeAt stands (setLength data.length)
      have exactly :
          setLength data.length (overwriteFront (before.getD []) data) =
            data :=
        replaceInPlace_eq _ data
      rw [exactly] at cut
      rw [mirrors.fits recipient _ stands]
      exact ⟨cut, rfl⟩
  | ended effect =>
      exact ⟨mirrors.same stands.symm, follows⟩

end Folder.Mirrors

end PeerSession.Storage
