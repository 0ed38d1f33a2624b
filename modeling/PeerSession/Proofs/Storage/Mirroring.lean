import Mathlib.Data.String.Basic
import PeerSession.Proofs.Pointwise
import PeerSession.Proofs.Storage.Opening
import PeerSession.Storage.Memory

namespace PeerSession

/-!
# Folders that mirror a memory

A folder mirrors a memory if the files that bear the names of recipients are the
records of the memory. Both then answer alike, and reading, writing and deleting
keep it so, unless the path of a record is too long: such a record is in neither
of them, and the folder cannot write it.
-/

namespace RecipientId

theorem toList_recordName (recipient : RecipientId) :
    recipient.recordName.toList = Nat.toDigits 10 recipient.toNat := by
  unfold recordName
  rw [Nat.toString_eq_ofList_toDigits, String.toList_ofList]

/-- Different recipients have records of different names. -/
theorem recordName_injective
    {left right : RecipientId}
    (same : left.recordName = right.recordName) :
    left = right := by
  have digits := congrArg String.toList same
  rw [toList_recordName, toList_recordName] at digits
  have number := congrArg (Nat.ofDigitChars 10 · 0) digits
  simp only [Nat.ofDigitChars_ten_toDigits] at number
  exact UInt64.toNat_inj.mp number

theorem utf8Len_le (characters : List Char) :
    String.utf8Len characters ≤ 4 * characters.length := by
  induction characters with
  | nil =>
      decide
  | cons character rest inductionHypothesis =>
      have size := character.utf8Size_le_four
      rw [String.utf8Len_cons, List.length_cons]
      omega

/-- A number of 64 bits has at most 20 digits. -/
theorem utf8ByteSize_recordName_le (recipient : RecipientId) :
    recipient.recordName.utf8ByteSize ≤ 80 := by
  have few : recipient.toNat < 10 ^ 20 :=
    Nat.lt_trans recipient.toNat_lt (by decide)
  have digits : recipient.recordName.toList.length ≤ 20 := by
    rw [toList_recordName]
    exact (Nat.length_toDigits_le_iff (by decide) (by decide)).mpr few
  have octets := utf8Len_le recipient.recordName.toList
  rw [String.utf8Len_toList] at octets
  omega

/-- A number of 64 bits has few enough digits for a name. -/
theorem fits_recordName (recipient : RecipientId) :
    (Storage.PathPart.name recipient.recordName).fits = true :=
  decide_eq_true
    (Nat.le_trans recipient.utf8ByteSize_recordName_le (by decide))

end RecipientId

namespace Storage

/-- Where the record of a recipient stands in a directory of records. -/
def recordPlace
    (id : DirectoryId)
    (recipient : RecipientId) :
    Place where
  inside := id
  name := recipient.recordName

theorem recordPlace_ne
    (id : DirectoryId)
    {recipient other : RecipientId}
    (different : other ≠ recipient) :
    recordPlace id other ≠ recordPlace id recipient := by
  intro same
  exact different
    (RecipientId.recordName_injective (congrArg Place.name same))

namespace Folder

/-- The files with names of recipients are the records of a memory. -/
structure Mirrors
    (path : Path)
    (id : DirectoryId)
    (folder : Folder)
    (memory : Memory) :
    Prop where
  samePath : folder.path = path
  reaches : folder.tree.Reaches path.parts id
  records :
    ∀ recipient,
      folder.tree.node? (recordPlace id recipient) =
        (memory.records recipient).map .file
  fits :
    ∀ recipient record,
      memory.records recipient = some record →
        (folder.pathFor recipient).fits = true

theorem path_reply
    (folder : Folder)
    (result : Except Error FileTree) :
    (folder.reply result).2.path = folder.path := by
  cases result <;> rfl

theorem node?_of_vacant
    {folder : Folder}
    {id : DirectoryId}
    (reaches : folder.tree.Reaches folder.path.parts id)
    {name : String}
    (vacant : ∀ entry ∈ folder.listing, entry.1 ≠ name) :
    folder.tree.node? { inside := id, name := name } = none := by
  have children :
      ∀ entry ∈ folder.tree.children id, entry.1 ≠ name := by
    intro entry isChild
    apply vacant
    simp only [listing, reaches.find]
    exact List.mem_mergeSort.mpr isChild
  unfold FileTree.children at children
  unfold FileTree.node?
  cases found : folder.tree.directories[id]? with
  | none =>
      rfl
  | some directory =>
      rw [found] at children
      have absent :
          ∀ entry ∈ directory.entries, (name != entry.1) = true := by
        intro entry isEntry
        exact bne_iff_ne.mpr (children entry isEntry).symm
      exact List.lookup_eq_none_iff.mpr absent

/-- A folder without names of recipients mirrors a memory without records. -/
theorem mirrors_empty
    {folder : Folder}
    {id : DirectoryId}
    (reaches : folder.tree.Reaches folder.path.parts id)
    (vacant :
      ∀ entry ∈ folder.listing,
        ∀ recipient : RecipientId, entry.1 ≠ recipient.recordName) :
    Mirrors folder.path id folder Memory.empty where
  samePath := rfl
  reaches := reaches
  records := by
    intro recipient
    exact node?_of_vacant reaches
      fun entry isListed => vacant entry isListed recipient
  fits := nofun

theorem reach_of_fits
    {α : Type}
    {folder : Folder}
    {recipient : RecipientId}
    (fits : (folder.pathFor recipient).fits = true)
    (operation : List PathPart → Except Error α) :
    folder.reach recipient operation =
      operation (folder.pathFor recipient).parts := by
  simp only [reach, fits, if_true]

theorem reach_too_long
    {α : Type}
    {folder : Folder}
    {recipient : RecipientId}
    (tooLong : (folder.pathFor recipient).fits = false)
    (operation : List PathPart → Except Error α) :
    folder.reach recipient operation = .error FileTree.nameTooLong := by
  simp only [reach, tooLong, Bool.false_eq_true, if_false]

theorem read_too_long
    {folder : Folder}
    {recipient : RecipientId}
    (tooLong : (folder.pathFor recipient).fits = false) :
    (folder.read recipient).1 = .error FileTree.nameTooLong :=
  reach_too_long tooLong _

theorem write_too_long
    {folder : Folder}
    {recipient : RecipientId}
    (tooLong : (folder.pathFor recipient).fits = false)
    (data : Bytes) :
    (folder.write recipient data).1 = .error FileTree.nameTooLong := by
  unfold write
  rw [reach_too_long tooLong]
  rfl

theorem delete_too_long
    {folder : Folder}
    {recipient : RecipientId}
    (tooLong : (folder.pathFor recipient).fits = false) :
    (folder.delete recipient).1 = .error FileTree.nameTooLong := by
  unfold delete
  rw [reach_too_long tooLong]
  rfl

section Reached

variable {id : DirectoryId} {folder : Folder} {recipient : RecipientId}

/-- The path of a record leads to its place in the directory. -/
theorem find_record
    (reaches : folder.tree.Reaches folder.path.parts id)
    (recipient : RecipientId) :
    folder.tree.find (folder.pathFor recipient).parts =
      .ok (folder.tree.look (recordPlace id recipient)) :=
  FileTree.find_name reaches.find recipient.fits_recordName

theorem readFile_record
    (reaches : folder.tree.Reaches folder.path.parts id)
    {record : Bytes}
    (stands :
      folder.tree.node? (recordPlace id recipient) = some (.file record)) :
    folder.tree.readFile (folder.pathFor recipient).parts = .ok record := by
  unfold FileTree.readFile
  rw [find_record reaches]
  simp only [FileTree.look, stands]

theorem read_record
    (reaches : folder.tree.Reaches folder.path.parts id)
    (fits : (folder.pathFor recipient).fits = true)
    {record : Bytes}
    (stands :
      folder.tree.node? (recordPlace id recipient) = some (.file record)) :
    (folder.read recipient).1 = .ok record := by
  unfold read
  rw [reach_of_fits fits]
  exact readFile_record reaches stands

/-- A record whose place holds no directory is written, and nothing else changes. -/
theorem exists_write
    (reaches : folder.tree.Reaches folder.path.parts id)
    (fits : (folder.pathFor recipient).fits = true)
    (free :
      ∀ other,
        folder.tree.node? (recordPlace id recipient) ≠
          some (.directory other))
    (data : Bytes) :
    ∃ written,
      folder.write recipient data =
          (.ok (), { tree := written, path := folder.path }) ∧
        folder.tree.FileChange (recordPlace id recipient) (some data)
          written := by
  obtain ⟨written, isWritten, fileChange⟩ :=
    FileTree.writeFile_place reaches.known free
      (find_record reaches recipient) data
  refine ⟨written, ?_, fileChange⟩
  unfold write
  rw [reach_of_fits fits, isWritten]
  rfl

end Reached

namespace Mirrors

variable {path : Path} {id : DirectoryId} {folder : Folder}
  {memory : Memory} {recipient : RecipientId}

theorem reaches_own
    (mirrors : Mirrors path id folder memory) :
    folder.tree.Reaches folder.path.parts id := by
  rw [mirrors.samePath]
  exact mirrors.reaches

theorem find_record
    (mirrors : Mirrors path id folder memory)
    (recipient : RecipientId) :
    folder.tree.find (folder.pathFor recipient).parts =
      .ok (folder.tree.look (recordPlace id recipient)) :=
  Folder.find_record mirrors.reaches_own recipient

theorem free
    (mirrors : Mirrors path id folder memory)
    (recipient : RecipientId)
    (other : DirectoryId) :
    folder.tree.node? (recordPlace id recipient) ≠
      some (.directory other) := by
  rw [mirrors.records]
  cases memory.records recipient <;> exact nofun

theorem vacant
    (mirrors : Mirrors path id folder memory)
    (absent : memory.records recipient = none) :
    folder.tree.node? (recordPlace id recipient) = none := by
  rw [mirrors.records, absent]
  rfl

theorem stands
    (mirrors : Mirrors path id folder memory)
    {record : Bytes}
    (stored : memory.records recipient = some record) :
    folder.tree.node? (recordPlace id recipient) =
      some (.file record) := by
  rw [mirrors.records, stored]
  rfl

/-- A record that cannot be reached is in neither of the two. -/
theorem absent_of_too_long
    (mirrors : Mirrors path id folder memory)
    (tooLong : (folder.pathFor recipient).fits = false) :
    memory.records recipient = none := by
  cases stored : memory.records recipient with
  | none =>
      rfl
  | some record =>
      rw [mirrors.fits recipient record stored] at tooLong
      exact nomatch tooLong

/-- A change of one recipient's file is mirrored by the change of its record. -/
theorem change
    (mirrors : Mirrors path id folder memory)
    {contents : Option Bytes}
    {changed : FileTree}
    (fits : (folder.pathFor recipient).fits = true)
    (fileChange :
      folder.tree.FileChange (recordPlace id recipient) contents changed)
    (writes : RecipientId → Nat) :
    Mirrors path id
      { tree := changed, path := folder.path }
      { records := update memory.records recipient contents
        writes := writes } where
  samePath := mirrors.samePath
  reaches := fileChange.reaches (mirrors.free recipient) mirrors.reaches
  records := by
    intro other
    simp only [update_eq_functionUpdate]
    by_cases same : other = recipient
    · subst same
      rw [Function.update_self]
      exact fileChange.node?_same
    · rw [Function.update_of_ne same, ← mirrors.records other]
      exact fileChange.node?_other (recordPlace_ne id same)
  fits := by
    intro other record stored
    simp only [update_eq_functionUpdate] at stored
    by_cases same : other = recipient
    · subst same
      exact fits
    · rw [Function.update_of_ne same] at stored
      exact mirrors.fits other record stored

theorem readFile
    (mirrors : Mirrors path id folder memory)
    {record : Bytes}
    (stored : memory.records recipient = some record) :
    folder.tree.readFile (folder.pathFor recipient).parts = .ok record :=
  readFile_record mirrors.reaches_own (mirrors.stands stored)

theorem read_stored
    (mirrors : Mirrors path id folder memory)
    {record : Bytes}
    (stored : memory.records recipient = some record) :
    (folder.read recipient).1 = .ok record :=
  read_record mirrors.reaches_own (mirrors.fits recipient record stored)
    (mirrors.stands stored)

theorem read_absent
    (mirrors : Mirrors path id folder memory)
    (fits : (folder.pathFor recipient).fits = true)
    (absent : memory.records recipient = none) :
    (folder.read recipient).1 = .error FileTree.noSuchFile := by
  unfold read
  rw [reach_of_fits fits, FileTree.readFile, mirrors.find_record]
  simp only [FileTree.look, mirrors.vacant absent]

/-- A record that can be reached is written in both. -/
theorem write
    (mirrors : Mirrors path id folder memory)
    (fits : (folder.pathFor recipient).fits = true)
    (data : Bytes)
    (writes : RecipientId → Nat) :
    (folder.write recipient data).1 = .ok () ∧
      Mirrors path id
        (folder.write recipient data).2
        { records := update memory.records recipient (some data)
          writes := writes } := by
  obtain ⟨written, isWritten, fileChange⟩ :=
    exists_write mirrors.reaches_own fits (mirrors.free recipient) data
  rw [isWritten]
  exact ⟨rfl, mirrors.change fits fileChange writes⟩

theorem delete_stored
    (mirrors : Mirrors path id folder memory)
    {record : Bytes}
    (stored : memory.records recipient = some record) :
    (folder.delete recipient).1 = .ok () ∧
      Mirrors path id
        (folder.delete recipient).2
        { records := update memory.records recipient none
          writes := memory.writes } := by
  have fits := mirrors.fits recipient record stored
  have removed :=
    FileTree.removeFile_file (mirrors.stands stored)
      (mirrors.find_record recipient)
  have fileChange :
      folder.tree.FileChange (recordPlace id recipient) none
        (folder.tree.clear (recordPlace id recipient)) :=
    FileTree.fileChange_clear mirrors.reaches.known
  unfold Folder.delete
  rw [reach_of_fits fits, removed]
  exact ⟨rfl, mirrors.change fits fileChange memory.writes⟩

theorem delete_absent
    (mirrors : Mirrors path id folder memory)
    (fits : (folder.pathFor recipient).fits = true)
    (absent : memory.records recipient = none) :
    folder.delete recipient = (.error FileTree.noSuchFile, folder) := by
  have failed :=
    FileTree.removeFile_vacant (mirrors.vacant absent)
      (mirrors.find_record recipient)
  unfold Folder.delete
  rw [reach_of_fits fits, failed]
  rfl

theorem hasFile
    (mirrors : Mirrors path id folder memory)
    (recipient : RecipientId) :
    folder.tree.hasFile (folder.pathFor recipient).parts =
      memory.contains recipient := by
  unfold FileTree.hasFile Memory.contains
  rw [mirrors.find_record]
  cases stored : memory.records recipient with
  | none =>
      simp only [FileTree.look, mirrors.vacant stored]
      rfl
  | some record =>
      simp only [FileTree.look, mirrors.stands stored]
      rfl

/-- A recipient's file has the octets of its record, and is not there without one. -/
theorem files
    (mirrors : Mirrors path id folder memory)
    (recipient : RecipientId) :
    let file := (path.child recipient.recordName).parts
    (∀ data,
        memory.records recipient = some data →
          folder.tree.readFile file = .ok data) ∧
      (memory.records recipient = none →
        folder.tree.hasFile file = false) := by
  intro file
  have isAt : (folder.pathFor recipient).parts = file := by
    rw [pathFor, mirrors.samePath]
  rw [← isAt]
  refine ⟨fun data => mirrors.readFile, ?_⟩
  intro absent
  rw [mirrors.hasFile, Memory.contains, absent]
  rfl

/-- The two agree on what records there are, however long the paths. -/
theorem contains
    (mirrors : Mirrors path id folder memory)
    (recipient : RecipientId) :
    folder.contains recipient = memory.contains recipient := by
  unfold Folder.contains
  rw [mirrors.hasFile]
  cases fits : (folder.pathFor recipient).fits with
  | true =>
      exact Bool.true_and _
  | false =>
      have absent := mirrors.absent_of_too_long fits
      rw [Memory.contains, absent]
      rfl

end Mirrors

end Folder

end Storage

end PeerSession
