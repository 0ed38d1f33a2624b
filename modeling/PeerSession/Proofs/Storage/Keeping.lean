import PeerSession.Proofs.Storage.Mirroring

namespace PeerSession.Storage

/-!
# Backends that keep records

What clients rely on who share a backend: nothing happens to a record unless it is
written, and then it is what was written. Memories keep records without further
ado, and folders as long as their files are nothing but records with paths that
fit.
-/

/-- A backend, as long as it is sound, keeps what is written, and each record for itself. -/
structure Keeps
    {σ : Type}
    [Backend σ]
    (sound : σ → Prop) :
    Prop where
  sound_read :
    ∀ {backend} recipient,
      sound backend → sound (Backend.read backend recipient).2
  read_read :
    ∀ {backend} reader recipient,
      sound backend →
      (Backend.read (Backend.read backend reader).2 recipient).1 =
        (Backend.read backend recipient).1
  write_ok :
    ∀ {backend} recipient data,
      sound backend → (Backend.write backend recipient data).1 = .ok ()
  sound_write :
    ∀ {backend} recipient data,
      sound backend → sound (Backend.write backend recipient data).2
  read_write_same :
    ∀ {backend} recipient data,
      sound backend →
      (Backend.read (Backend.write backend recipient data).2 recipient).1 =
        .ok data
  read_write_other :
    ∀ {backend writer recipient} data,
      sound backend →
      recipient ≠ writer →
      (Backend.read (Backend.write backend writer data).2 recipient).1 =
        (Backend.read backend recipient).1

namespace Memory

theorem read_fst
    (memory : Memory)
    (recipient : RecipientId) :
    (memory.read recipient).1 =
      (memory.records recipient).elim (.error missing) .ok := by
  cases stored : memory.records recipient <;> simp [read, stored]

/-- A memory keeps records, whatever it contains. -/
theorem keeps : Keeps fun _ : Memory => True where
  sound_read _ _ := trivial
  read_read reader recipient _ := by
    simp only [Backend.read, read_snd]
  write_ok recipient data _ := by
    simp only [Backend.write, write_eq]
  sound_write _ _ _ := trivial
  read_write_same recipient data _ := by
    simp only [Backend.read, Backend.write, write_eq, read_fst,
      update_eq_functionUpdate, Function.update_self, Option.elim_some]
  read_write_other data _ different := by
    simp only [Backend.read, Backend.write, write_eq, read_fst,
      update_eq_functionUpdate, Function.update_of_ne different]

end Memory

theorem Path.separator_le (path : Path) : path.separator ≤ 1 := by
  unfold separator
  split <;> decide

namespace Folder

/-- The files of a folder are nothing but records, and all paths of records fit. -/
def Sound (folder : Folder) : Prop :=
  (∃ path id memory, Mirrors path id folder memory) ∧
    ∀ recipient, (folder.pathFor recipient).fits = true

/-- A folder whose own path leaves room for the names of records is sound. -/
theorem Mirrors.sound
    {path : Path}
    {id : DirectoryId}
    {folder : Folder}
    {memory : Memory}
    (mirrors : Mirrors path id folder memory)
    (roomy : path.octets + 81 ≤ Path.longestText) :
    folder.Sound := by
  refine ⟨⟨path, id, memory, mirrors⟩, ?_⟩
  intro recipient
  have name := recipient.utf8ByteSize_recordName_le
  have separator := path.separator_le
  unfold pathFor
  rw [mirrors.samePath]
  apply decide_eq_true
  change
    path.octets + path.separator + recipient.recordName.utf8ByteSize ≤
      Path.longestText
  omega

/-- What a folder answers is what the records that it mirrors say. -/
theorem Mirrors.read_fst
    {path : Path}
    {id : DirectoryId}
    {folder : Folder}
    {memory : Memory}
    {recipient : RecipientId}
    (mirrors : Mirrors path id folder memory)
    (fits : (folder.pathFor recipient).fits = true) :
    (folder.read recipient).1 =
      (memory.records recipient).elim (.error FileTree.noSuchFile) .ok := by
  cases stored : memory.records recipient with
  | some record =>
      exact mirrors.read_stored stored
  | none =>
      exact mirrors.read_absent fits stored

theorem pathFor_write
    (folder : Folder)
    (writer recipient : RecipientId)
    (data : Bytes) :
    (folder.write writer data).2.pathFor recipient =
      folder.pathFor recipient :=
  congrArg (Path.child · recipient.recordName) (folder.path_reply _)

/-- Reading what was written gives it for its recipient, and all else as before. -/
theorem Sound.read_write
    {folder : Folder}
    (sound : folder.Sound)
    (writer recipient : RecipientId)
    (data : Bytes) :
    ((folder.write writer data).2.read recipient).1 =
      if recipient = writer then
        .ok data
      else
        (folder.read recipient).1 := by
  obtain ⟨⟨path, id, memory, mirrors⟩, allFit⟩ := sound
  obtain ⟨_, written⟩ :=
    mirrors.write (allFit writer) data memory.writes
  have fits := allFit recipient
  rw [mirrors.read_fst fits]
  rw [← folder.pathFor_write writer recipient data] at fits
  rw [written.read_fst fits]
  simp only [update_eq_functionUpdate, Function.update_apply]
  split <;> rfl

/-- A folder keeps records as long as nothing else stands in their place. -/
theorem keeps : Keeps Folder.Sound where
  sound_read _ sound := sound
  read_read _ _ _ := rfl
  write_ok recipient data sound := by
    obtain ⟨⟨path, id, memory, mirrors⟩, allFit⟩ := sound
    exact (mirrors.write (allFit recipient) data memory.writes).1
  sound_write recipient data sound := by
    obtain ⟨⟨path, id, memory, mirrors⟩, allFit⟩ := sound
    constructor
    · exact ⟨path, id, _,
        (mirrors.write (allFit recipient) data memory.writes).2⟩
    · intro other
      exact (congrArg Path.fits (pathFor_write _ recipient other data)).trans
        (allFit other)
  read_write_same recipient data sound :=
    (sound.read_write recipient recipient data).trans (if_pos rfl)
  read_write_other data sound different :=
    (sound.read_write _ _ data).trans (if_neg different)

end Folder

end PeerSession.Storage

namespace PeerSession

/-- A folder at the root of a file tree without anything else. -/
def rootFolder : Storage.Folder where
  tree := .empty
  path :=
    { parts := []
      octets := 1
      slashed := true }

theorem mirrors_rootFolder :
    rootFolder.Mirrors rootFolder.path 0 Storage.Memory.empty := by
  have reaches : rootFolder.tree.Reaches rootFolder.path.parts 0 :=
    { wellFormed := Storage.FileTree.wellFormed_empty
      find := rfl }
  have unused : rootFolder.listing = [] := by
    decide +kernel
  apply Storage.Folder.mirrors_empty reaches
  intro entry isListed
  rw [unused] at isListed
  cases isListed

theorem sound_rootFolder : rootFolder.Sound := by
  apply mirrors_rootFolder.sound
  decide

end PeerSession
