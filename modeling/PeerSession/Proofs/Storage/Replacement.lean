import PeerSession.Proofs.Storage.Stages
import PeerSession.Proofs.Wire.Addressing

namespace PeerSession.Storage

/-!
# Replacing contents in place

What is written over a record in place leaves nothing of the old record, whether that
was shorter, longer or not there at all. In memory the record is grown, a stretch of
it is copied over and the rest is cut off, and the stretch is always there. A file is
written piece by piece from its start, each piece behind the one before, until its
length is set.
-/

/-- Copy data over the front of a record, up to a position. -/
def copyOver
    (record : Bytes)
    (finish : Nat)
    (data : Bytes) :
    Except Wire.Trap Bytes :=
  match Wire.slice record 0 finish with
  | .error trap => .error trap
  | .ok stretch =>
      if stretch.length = data.length then
        .ok (data ++ record.drop finish)
      else
        .error .unequalLengths

/-- Lengthen a record that is too short with zeros, copy the data over it, cut the rest off. -/
def replaceByPosition
    (old data : Bytes) :
    Except Wire.Trap Bytes :=
  let record :=
    if old.length < data.length then
      old ++ List.replicate (data.length - old.length) 0
    else
      old
  match copyOver record data.length data with
  | .error trap => .error trap
  | .ok overwritten => .ok (overwritten.take data.length)

theorem copyOver_of_le
    {record data : Bytes}
    (enough : data.length ≤ record.length) :
    copyOver record data.length data =
      .ok (overwriteFront record data) := by
  have stretch :
      Wire.slice record 0 data.length =
        .ok (record.extract 0 data.length) :=
    if_pos ⟨Nat.zero_le _, enough⟩
  have length : (record.extract 0 data.length).length = data.length := by
    rw [List.extract_eq_take_drop, List.length_take, List.drop_zero]
    omega
  simp only [copyOver, stretch, length, ↓reduceIte]
  rfl

/-- A record that was grown has a stretch as long as the data. -/
theorem replaceByPosition_eq (old data : Bytes) :
    replaceByPosition old data = .ok data := by
  have cut (record : Bytes) :
      (overwriteFront record data).take data.length = data :=
    List.take_left
  by_cases short : old.length < data.length
  · have enough :
        data.length ≤
          (old ++ List.replicate (data.length - old.length) 0).length := by
      rw [List.length_append, List.length_replicate]
      omega
    simp only [replaceByPosition, if_pos short, copyOver_of_le enough, cut]
  · have enough : data.length ≤ old.length := Nat.le_of_not_lt short
    simp only [replaceByPosition, if_neg short, copyOver_of_le enough, cut]

/-- Write a record in memory by position, starting with an empty one where there is none. -/
def Memory.writeByPosition
    (memory : Memory)
    (recipient : RecipientId)
    (data : Bytes) :
    Except Wire.Trap (Reply Unit Memory) :=
  match replaceByPosition ((memory.records recipient).getD []) data with
  | .error trap => .error trap
  | .ok record =>
      .ok
        (.ok (),
          { records := update memory.records recipient (some record)
            writes :=
              update memory.writes recipient
                (memory.writes recipient + 1) })

theorem Memory.writeByPosition_eq
    (memory : Memory)
    (recipient : RecipientId)
    (data : Bytes) :
    memory.writeByPosition recipient data =
      .ok (memory.write recipient data) := by
  simp only [writeByPosition, replaceByPosition_eq, write_eq]

/-- The contents of a file that is open, and the position in it. -/
@[ext] structure OpenFile where
  contents : Bytes
  position : Nat
  deriving DecidableEq, Repr

namespace OpenFile

/-- Go to a position. -/
def seek (file : OpenFile) (position : Nat) : OpenFile where
  contents := file.contents
  position := position

/--
Write octets from the position on, over what stands there, and go behind them. Zeros
fill the gap in front of them if the position is beyond the end, but no octets at all
leave the file as it is.
-/
def write (file : OpenFile) : Bytes → OpenFile
  | [] => file
  | octet :: octets =>
      let piece := octet :: octets
      { contents :=
          growTo file.position (file.contents.take file.position) ++ piece ++
            file.contents.drop (file.position + piece.length)
        position := file.position + piece.length }

/-- Write pieces one behind the other. -/
def writeAll (file : OpenFile) (pieces : List Bytes) : OpenFile :=
  pieces.foldl write file

/-- Cut the file off at a length, or fill it up with zeros; the position stays. -/
def setLength (file : OpenFile) (length : Nat) : OpenFile where
  contents := Storage.setLength length file.contents
  position := file.position

/-- A file whose front was written over, at the position behind what was written. -/
def overwritten (old written : Bytes) : OpenFile where
  contents := overwriteFront old written
  position := written.length

/-- A piece that is written behind others is one with them. -/
theorem write_overwritten (old written piece : Bytes) :
    (overwritten old written).write piece =
      overwritten old (written ++ piece) := by
  cases piece with
  | nil =>
      rw [List.append_nil]
      rfl
  | cons octet octets =>
      simp [write, overwritten, overwriteFront, growTo, List.drop_append]

/-- Pieces leave what all of them together leave. -/
theorem writeAll_overwritten
    (old written : Bytes)
    (pieces : List Bytes) :
    (overwritten old written).writeAll pieces =
      overwritten old (written ++ pieces.flatten) := by
  induction pieces generalizing written with
  | nil =>
      rw [List.flatten_nil, List.append_nil]
      rfl
  | cons piece pieces inductionHypothesis =>
      rw [List.flatten_cons, ← List.append_assoc]
      rw [← inductionHypothesis (written ++ piece)]
      rw [← write_overwritten]
      rfl

/-- A file that is written from its start has its front written over. -/
theorem contents_writeAll
    (file : OpenFile)
    (pieces : List Bytes) :
    ((file.seek 0).writeAll pieces).contents =
      overwriteFront file.contents pieces.flatten :=
  congrArg contents (writeAll_overwritten file.contents [] pieces)

end OpenFile

/-- Of two settings of a name the later one counts. -/
theorem Directory.set_set
    (directory : Directory)
    (name : String)
    (earlier later : Node) :
    (directory.set name earlier).set name later =
      directory.set name later := by
  simp [set, clear, List.filter_filter]

namespace FileTree

/-- Of two settings of a place the later one counts. -/
theorem set_set
    (tree : FileTree)
    (place : Place)
    (earlier later : Node) :
    (tree.set place earlier).set place later = tree.set place later := by
  simp only [set, FileTree.mk.injEq]
  apply Array.ext_getElem?
  intro id
  simp only [Array.getElem?_modify]
  split
  · simp [Option.map_map, Function.comp_def, Directory.set_set]
  · rfl

theorem known_of_stands
    {tree : FileTree}
    {place : Place}
    {node : Node}
    (stands : tree.node? place = some node) :
    place.inside < tree.directories.size := by
  unfold node? at stands
  split at stands
  next directory found =>
    exact (Array.getElem?_eq_some_iff.mp found).1
  next =>
    cases stands

/-- Two changes of a file are one. -/
theorem changeFile_changeFile
    (tree : FileTree)
    (place : Place)
    (first second : Bytes → Bytes) :
    (tree.changeFile place first).changeFile place second =
      tree.changeFile place (second ∘ first) := by
  cases stands : tree.node? place with
  | none =>
      simp only [changeFile, stands]
  | some node =>
      cases node with
      | directory id =>
          simp only [changeFile, stands]
      | file contents =>
          have changed :
              (tree.set place (.file (first contents))).node? place =
                some (.file (first contents)) := by
            rw [node?_set tree (known_of_stands stands), if_pos rfl]
          simp only [changeFile, stands, changed, set_set,
            Function.comp_apply]

end FileTree

namespace Folder

theorem changeAt_changeAt
    (folder : Folder)
    (place : Place)
    (first second : Bytes → Bytes) :
    (folder.changeAt place first).changeAt place second =
      folder.changeAt place (second ∘ first) := by
  simp only [changeAt, FileTree.changeFile_changeFile]

/--
Open the file of a record, making an empty one where nothing stands, write pieces from
its start, and set its length to that of all of them.
-/
def writeInPieces
    (folder : Folder)
    (recipient : RecipientId)
    (pieces : List Bytes) :
    Reply Unit Folder :=
  match folder.openRecord recipient with
  | .error error => (.error error, folder)
  | .ok (place, opened) =>
      (.ok (),
        opened.changeAt place fun old =>
          let file : OpenFile := { contents := old, position := 0 }
          (((file.seek 0).writeAll pieces).setLength
            pieces.flatten.length).contents)

/-- It does not matter in how many pieces a record is written. -/
theorem writeInPieces_eq
    (folder : Folder)
    (recipient : RecipientId)
    (pieces : List Bytes) :
    folder.writeInPieces recipient pieces =
      folder.write recipient pieces.flatten := by
  rw [write_eq_changeAt, writeInPieces]
  cases folder.openRecord recipient with
  | error error =>
      rfl
  | ok reached =>
      simp only [changeAt_changeAt, OpenFile.setLength,
        OpenFile.contents_writeAll]
      rfl

end Folder

/--
Whatever record a recipient has, or none, it has exactly the data once they are written
in memory. By position this runs into no trap. The writes of the recipient are one more,
and all other records and numbers of writes are the same. If the recipient's file in a
folder has the same contents as the record, or is not there either, then opening it,
writing the data over its front in any pieces and setting its length leaves exactly the
data in it, and everything else as it was.
-/
theorem replaced_record_is_data
    (memory : Memory)
    (recipient : RecipientId)
    (data : Bytes) :
    let after := (memory.write recipient data).2
    memory.writeByPosition recipient data = .ok (.ok (), after) ∧
      memory.write recipient data = (.ok (), after) ∧
      after.records recipient = some data ∧
      after.writes recipient = memory.writes recipient + 1 ∧
      (∀ other,
        other ≠ recipient →
          after.records other = memory.records other ∧
            after.writes other = memory.writes other) ∧
      ∀ (folder : Folder) (id : DirectoryId) (pieces : List Bytes),
        folder.tree.Reaches folder.path.parts id →
        (folder.pathFor recipient).fits = true →
        folder.tree.node? (recordPlace id recipient) =
            (memory.records recipient).map .file →
        pieces.flatten = data →
          ∃ written : Folder,
            folder.writeInPieces recipient pieces = (.ok (), written) ∧
              folder.write recipient data = (.ok (), written) ∧
              (written.read recipient).1 = .ok data ∧
              written.tree.node? (recordPlace id recipient) =
                some (.file data) ∧
              ∀ place,
                place ≠ recordPlace id recipient →
                  written.tree.node? place = folder.tree.node? place := by
  intro after
  have written := memory.write_eq recipient data
  have isAfter :
      after =
        { records := update memory.records recipient (some data)
          writes :=
            update memory.writes recipient
              (memory.writes recipient + 1) } :=
    congrArg Prod.snd written
  refine ⟨?_, ?_, ?_, ?_, ?_, ?_⟩
  · rw [memory.writeByPosition_eq, isAfter, written]
  · rw [isAfter, written]
  · simp only [isAfter, update_eq_functionUpdate, Function.update_self]
  · simp only [isAfter, update_eq_functionUpdate, Function.update_self]
  · intro other different
    simp only [isAfter, update_eq_functionUpdate,
      Function.update_of_ne different, and_self]
  · rintro folder id pieces reaches fits stands rfl
    have free (other : DirectoryId) :
        folder.tree.node? (recordPlace id recipient) ≠
          some (.directory other) := by
      rw [stands]
      cases memory.records recipient <;>
        (intro isDirectory; cases isDirectory)
    obtain ⟨tree, isWritten, fileChange⟩ :=
      Folder.exists_write reaches fits free pieces.flatten
    let last : Folder := { tree := tree, path := folder.path }
    have reachesLast : last.tree.Reaches last.path.parts id :=
      fileChange.reaches free reaches
    have isFile :
        last.tree.node? (recordPlace id recipient) =
          some (.file pieces.flatten) :=
      fileChange.node?_same
    refine ⟨last, ?_, isWritten, Folder.read_record reachesLast fits isFile,
      isFile, fun place => fileChange.node?_other⟩
    rw [folder.writeInPieces_eq, isWritten]

/-- Two octets, written one by one, are all that is left of a record of three. -/
theorem replaced_record_is_data_shorterRecord :
    let memory := Memory.empty.put 7 [1, 2, 3]
    let after := (memory.write 7 [8, 9]).2
    let folder := (rootFolder.write 7 [1, 2, 3]).2
    memory.writeByPosition 7 [8, 9] = .ok (.ok (), after) ∧
      after.records 7 = some [8, 9] ∧
      (6 : RecipientId) ≠ 7 ∧
      after.records 6 = none ∧
      folder.tree.Reaches folder.path.parts 0 ∧
      (folder.pathFor 7).fits = true ∧
      folder.tree.node? (recordPlace 0 7) = some (.file [1, 2, 3]) ∧
      ∃ written : Folder,
        folder.writeInPieces 7 [[8], [], [9]] = (.ok (), written) ∧
          (written.read 7).1 = .ok [8, 9] := by
  intro memory after folder
  have fits : (rootFolder.pathFor 7).fits = true := by
    decide +kernel
  have mirrors :
      folder.Mirrors rootFolder.path 0
        { records := update Memory.empty.records 7 (some [1, 2, 3])
          writes := Memory.empty.writes } :=
    (mirrors_rootFolder.write fits [1, 2, 3] _).2
  have stands :
      folder.tree.node? (recordPlace 0 7) = some (.file [1, 2, 3]) :=
    mirrors.stands rfl
  have fitsStill : (folder.pathFor 7).fits = true :=
    (congrArg Path.fits (Folder.pathFor_write rootFolder 7 7 _)).trans fits
  obtain ⟨byPosition, _, exactly, _, others, inFolder⟩ :=
    replaced_record_is_data memory 7 [8, 9]
  obtain ⟨written, inPieces, _, reads, _⟩ :=
    inFolder folder 0 [[8], [], [9]] mirrors.reaches_own fitsStill stands
      rfl
  exact
    ⟨byPosition, exactly, by decide, (others 6 (by decide)).1,
      mirrors.reaches_own, fitsStill, stands, written, inPieces, reads⟩

end PeerSession.Storage
