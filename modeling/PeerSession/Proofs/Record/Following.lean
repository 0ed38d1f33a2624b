import PeerSession.Proofs.Record.Script
import PeerSession.Record.Scan

namespace PeerSession.Record.Scan

/-!
# Scans that follow a script

A scan follows a script to a value if octets that complete the script make the
scan yield that value behind them, and octets that stop the script make it fail
in the same way. In both cases it makes the commits of the script up to there.
Scans in sequence follow their scripts in sequence.
-/

/-- What a scan does on octets that complete a script or stop it. -/
structure Follows
    {α : Type}
    (scan : Scan α)
    (script : Script)
    (value : α) : Prop where
  completes :
    ∀ (position : Nat) {bytes rest : Bytes},
      script.Completes bytes rest →
      ∃ behind,
        scan.run { position := position, rest := bytes } =
          { commits := script.commits
            ending := .ok (value, { position := behind, rest := rest }) }
  stops :
    ∀ (position : Nat) {bytes : Bytes}
      {done : List Commit} {failure : Failure},
      script.Stops bytes done failure →
      scan.run { position := position, rest := bytes } =
        { commits := done
          ending := .error failure }

theorem bind_assoc
    {α β γ : Type}
    (scan : Scan α)
    (next : α → Scan β)
    (last : β → Scan γ) :
    (scan >>= next) >>= last =
      scan >>= fun value => next value >>= last := by
  change Scan.mk _ = Scan.mk _
  congr 1
  funext cursor
  change continueWith (continueWith (scan.run cursor) next) last = _
  obtain ⟨commits, failure | ⟨value, behind⟩⟩ := scan.run cursor
  · rfl
  · simp only [continueWith, run_bind]
    obtain ⟨later, failure | ⟨result, behind⟩⟩ :=
      (next value).run behind
    · rfl
    · simp only [List.append_assoc]

namespace Follows

theorem pure
    {α : Type}
    (value : α) :
    (Pure.pure value : Scan α).Follows [] value where
  completes := by
    intro position bytes rest completes
    cases completes
    exact ⟨position, rfl⟩
  stops := by
    intro position bytes done failure stops
    cases stops

theorem commit (change : Commit) :
    (Scan.commit change).Follows [.commit change] () where
  completes := by
    intro position bytes rest completes
    cases completes with
    | commit _ later =>
        cases later
        exact ⟨position, rfl⟩
  stops := by
    intro position bytes done failure stops
    cases stops with
    | here _ here => cases here
    | commit _ later => cases later

theorem fail
    {α : Type}
    (failure : Failure)
    (value : α) :
    (Scan.fail failure).Follows [.refuse failure] value where
  completes := by
    intro position bytes rest completes
    cases completes
  stops := by
    intro position bytes done reason stops
    cases stops with
    | here _ here =>
        cases here
        rfl

/-- Reading a field follows the script of the value that is read off its octets. -/
theorem ofRead
    {α : Type}
    {field : Field}
    {stored : Wire.Value}
    {value : α}
    {read : Wire.Cursor → Except Wire.Error α × Wire.Cursor}
    (whole :
      stored.Fits →
      ∀ position rest,
        ∃ behind,
          read { position := position, rest := stored.bytes ++ rest } =
            (.ok value, { position := behind, rest := rest }))
    (cut :
      ∀ cursor : Wire.Cursor,
        stored.kind.CutIn cursor.rest →
        ∃ next,
          read cursor = (.error (.truncated field.name), next)) :
    (Scan.ofRead read).Follows [.read field stored] value where
  completes := by
    intro position bytes rest completes
    cases completes with
    | read _ _ fits later =>
        cases later
        obtain ⟨behind, reads⟩ := whole fits position rest
        exact ⟨behind, run_ofRead_ok reads⟩
  stops := by
    intro position bytes done failure stops
    cases stops with
    | here _ here =>
        cases here with
        | cut _ _ short =>
            obtain ⟨next, fails⟩ :=
              cut { position := position, rest := bytes } short
            exact run_ofRead_error fails
    | read _ _ _ later => cases later

theorem word
    (field : Field)
    (stored : UInt32) :
    (Scan.word field).Follows [.read field (.word stored)] stored := by
  refine ofRead ?_ ?_
  · intro _ position rest
    exact ⟨_, Wire.Cursor.readWord_wordBytes position stored rest _⟩
  · intro cursor short
    exact ⟨cursor, Wire.Cursor.readWord_of_cut _ short⟩

/-- Reading a flag from any word tells whether the word is 1. -/
theorem flag
    (field : Field)
    (stored : UInt32) :
    (Scan.flag field).Follows
      [.read field (.word stored)] (stored == 1) := by
  refine ofRead ?_ ?_
  · intro _ position rest
    refine ⟨position + Wire.wordSize, ?_⟩
    simp only [Wire.Cursor.readFlag, Wire.Value.bytes,
      Wire.Cursor.readWord_wordBytes]
  · intro cursor short
    refine ⟨cursor, ?_⟩
    simp only [Wire.Cursor.readFlag,
      Wire.Cursor.readWord_of_cut field.name short]

theorem blob
    (field : Field)
    (stored : Bytes) :
    (Scan.blob field).Follows [.read field (.blob stored)] stored := by
  refine ofRead ?_ ?_
  · intro fits position rest
    exact ⟨_, Wire.Cursor.readBlob_blobBytes position stored rest _ fits⟩
  · intro cursor cut
    exact Wire.Cursor.readBlob_of_cut _ cut

/-- Scans in sequence follow their scripts in sequence. -/
theorem bind
    {α β : Type}
    {scan : Scan α}
    {next : α → Scan β}
    {front back : Script}
    {value : α}
    {result : β}
    (first : scan.Follows front value)
    (second : (next value).Follows back result) :
    (scan >>= next).Follows (front ++ back) result where
  completes := by
    intro position bytes rest completes
    obtain ⟨middle, inFront, inBack⟩ :=
      (Script.completes_append_iff ..).mp completes
    obtain ⟨between, firstRun⟩ :=
      first.completes position inFront
    obtain ⟨behind, secondRun⟩ :=
      second.completes between inBack
    refine ⟨behind, ?_⟩
    simp only [run_bind, firstRun, continueWith, secondRun,
      Script.commits_append]
  stops := by
    intro position bytes done failure stops
    rcases stops.of_append with
        inFront | ⟨middle, later, inFront, inBack, rfl⟩
    · simp only [run_bind, first.stops position inFront, continueWith]
    · obtain ⟨between, firstRun⟩ :=
        first.completes position inFront
      simp only [run_bind, firstRun, continueWith,
        second.stops between inBack]

end Follows

end PeerSession.Record.Scan
