import BattleRoster.Session.Game
import Mathlib.Data.List.Forall2

/-!
# Restoring is all or nothing

A saved game is taken over in place, and the objects are written after the
roster.  The checks that come first leave nothing for the writing to refuse, so
a saved game is taken over completely or not at all; it is refused for the first
thing about it that does not fit.
-/

namespace BattleRoster

/-! ## Records that fit -/

/-- An object record fits an object of its name with a gate for each entry. -/
structure ObjectRecord.Fits (record : ObjectRecord) (b : Bearer) : Prop where
  name : record.name = b.name
  modules : record.modules.length = b.modules.length
  versions : ∀ entry ∈ record.modules, entry.version = 1

/-- A roster record fits a roster with as many players as it declares and has. -/
structure RosterRecord.Fits (record : RosterRecord) (r : Roster) : Prop where
  version : record.version = 1
  count : record.count.toNat = r.count
  players : record.players.length = r.count

/-- A saved game fits a game with the same objects in the same order. -/
structure GameRecord.Fits (record : GameRecord) (g : Game) : Prop where
  objects : List.Forall₂ ObjectRecord.Fits record.objects g.objects
  roster : record.roster.Fits g.roster

/-! ## The first fault of a record -/

/-- The first thing about an object record that does not fit. -/
inductive ObjectRecord.Fault (record : ObjectRecord) (b : Bearer) : GameError → Prop where
  | name (differs : record.name ≠ b.name) :
      Fault record b (.objectName record.name b.name)
  | modules (name : record.name = b.name)
      (differs : record.modules.length ≠ b.modules.length) :
      Fault record b (.upgrade (.moduleCount record.modules.length b.modules.length))
  | version {before after : List GateRecord} {bad : GateRecord}
      (name : record.name = b.name)
      (modules : record.modules.length = b.modules.length)
      (split : record.modules = before ++ bad :: after)
      (current : ∀ entry ∈ before, entry.version = 1) (differs : bad.version ≠ 1) :
      Fault record b (.upgrade (.gateVersion bad.version))

/-- The first thing about a roster record that does not fit. -/
inductive RosterRecord.Fault (record : RosterRecord) (r : Roster) : RecordError → Prop where
  | version (differs : record.version ≠ 1) : Fault record r (.version record.version)
  | playerCount (version : record.version = 1) (differs : record.count.toNat ≠ r.count) :
      Fault record r (.playerCount record.count r.count)
  | recordCount (version : record.version = 1) (count : record.count.toNat = r.count)
      (differs : record.players.length ≠ record.count.toNat) :
      Fault record r (.recordCount record.count record.players.length)

/-- The first thing about a list of object records that does not fit. -/
inductive ObjectRecord.FirstFault :
    List ObjectRecord → List Bearer → GameError → Prop where
  | here {record : ObjectRecord} {b : Bearer} {e : GameError}
      (records : List ObjectRecord) (bearers : List Bearer) (fault : record.Fault b e) :
      FirstFault (record :: records) (b :: bearers) e
  | later {record : ObjectRecord} {b : Bearer} {records : List ObjectRecord}
      {bearers : List Bearer} {e : GameError} (fits : record.Fits b)
      (fault : FirstFault records bearers e) :
      FirstFault (record :: records) (b :: bearers) e

/-- The first thing about a saved game that does not fit: objects before players. -/
inductive GameRecord.Fault (record : GameRecord) (g : Game) : GameError → Prop where
  | objectCount (differs : record.objects.length ≠ g.objects.length) :
      Fault record g (.objectCount record.objects.length g.objects.length)
  | object {e : GameError} (count : record.objects.length = g.objects.length)
      (fault : ObjectRecord.FirstFault record.objects g.objects e) : Fault record g e
  | roster {e : RecordError}
      (objects : List.Forall₂ ObjectRecord.Fits record.objects g.objects)
      (fault : record.roster.Fault g.roster e) : Fault record g (.record e)

/-! ## Checking -/

/-- One is the only version that is neither zero nor above the current one. -/
theorem version_refused_iff (version : UInt8) : version = 0 ∨ 1 < version ↔ version ≠ 1 := by
  constructor
  · rintro (zero | above) rfl
    · exact absurd zero (by decide)
    · exact absurd above (by decide)
  · intro differs
    by_cases zero : version = 0
    · exact .inl zero
    · refine .inr (UInt8.lt_iff_toNat_lt.mpr ?_)
      have notZero : version.toNat ≠ 0 := fun h => zero (UInt8.toNat_inj.mp h)
      have notOne : version.toNat ≠ 1 := fun h => differs (UInt8.toNat_inj.mp h)
      change 1 < version.toNat
      omega

namespace GateRecord

theorem check_eq (record : GateRecord) :
    record.check = if record.version = 1 then .ok () else .error (.gateVersion record.version) := by
  unfold check
  by_cases current : record.version = 1
  · rw [if_pos current, if_neg]
    exact fun refused => (version_refused_iff _).mp refused current
  · rw [if_neg current, if_pos]
    exact (version_refused_iff _).mpr current

/-- Entries are checked in order, up to the first one of another version. -/
theorem forM_check_cons (record : GateRecord) (records : List GateRecord) :
    (record :: records).forM check =
      if record.version = 1 then records.forM check
      else .error (.gateVersion record.version) := by
  change (record.check >>= fun _ => records.forM check) = _
  rw [check_eq]
  split <;> rfl

theorem forM_check_eq_ok {records : List GateRecord} :
    records.forM check = .ok () ↔ ∀ entry ∈ records, entry.version = 1 := by
  induction records with
  | nil => simp [pure, Except.pure]
  | cons record records ih =>
      rw [forM_check_cons]
      by_cases current : record.version = 1
      · rw [if_pos current, ih]
        simp [current]
      · rw [if_neg current]
        simp [current]

theorem forM_check_eq_error {records : List GateRecord} {e : UpgradeError} :
    records.forM check = .error e ↔ ∃ before bad after,
      records = before ++ bad :: after ∧ (∀ entry ∈ before, entry.version = 1) ∧
        bad.version ≠ 1 ∧ e = .gateVersion bad.version := by
  induction records with
  | nil =>
      constructor
      · intro impossible
        cases impossible
      · rintro ⟨before, bad, after, split, -⟩
        cases before <;> cases split
  | cons record records ih =>
      rw [forM_check_cons]
      by_cases current : record.version = 1
      · rw [if_pos current, ih]
        constructor
        · rintro ⟨before, bad, after, rfl, earlier, differs, rfl⟩
          exact ⟨record :: before, bad, after, rfl, by simpa [current] using earlier,
            differs, rfl⟩
        · rintro ⟨before, bad, after, split, earlier, differs, rfl⟩
          cases before with
          | nil =>
              cases split
              exact absurd current differs
          | cons first before =>
              cases split
              exact ⟨before, bad, after, rfl,
                fun entry mem => earlier entry (by simp [mem]), differs, rfl⟩
      · rw [if_neg current]
        constructor
        · intro same
          cases same
          exact ⟨[], record, records, rfl, by simp, current, rfl⟩
        · rintro ⟨before, bad, after, split, earlier, differs, rfl⟩
          cases before with
          | nil =>
              cases split
              rfl
          | cons first before =>
              cases split
              exact absurd (earlier record (by simp)) current

end GateRecord

/-! ## What checking an object finds -/

theorem Bearer.checkRecords_eq_ok {b : Bearer} {records : List GateRecord} :
    b.checkRecords records = .ok () ↔
      records.length = b.modules.length ∧ ∀ entry ∈ records, entry.version = 1 := by
  unfold checkRecords
  by_cases count : records.length = b.modules.length
  · rw [if_neg (not_not.mpr count), GateRecord.forM_check_eq_ok]
    simp [count]
  · rw [if_pos count]
    simp [count]

namespace Game

open ObjectRecord

theorem checkObject_eq_ok {b : Bearer} {record : ObjectRecord} :
    checkObject b record = .ok () ↔ record.Fits b := by
  unfold checkObject
  constructor
  · intro accepted
    split at accepted
    · cases accepted
    · next same =>
        cases checked : b.checkRecords record.modules with
        | error e =>
            rw [checked] at accepted
            cases accepted
        | ok =>
            obtain ⟨modules, versions⟩ := Bearer.checkRecords_eq_ok.mp checked
            exact ⟨(not_not.mp same).symm, modules, versions⟩
  · intro fits
    rw [if_neg (not_not.mpr fits.name.symm),
      Bearer.checkRecords_eq_ok.mpr ⟨fits.modules, fits.versions⟩]
    rfl

theorem checkObject_eq_error {b : Bearer} {record : ObjectRecord} {e : GameError} :
    checkObject b record = .error e ↔ record.Fault b e := by
  unfold checkObject Bearer.checkRecords
  constructor
  · intro refused
    split at refused
    · next differs =>
        cases refused
        exact .name (Ne.symm differs)
    · next same =>
        have name : record.name = b.name := (not_not.mp same).symm
        split at refused
        · next differs =>
            cases refused
            exact .modules name differs
        · next count =>
            cases checked : record.modules.forM GateRecord.check with
            | ok =>
                rw [checked] at refused
                cases refused
            | error why =>
                rw [checked] at refused
                cases refused
                obtain ⟨before, bad, after, split, current, differs, rfl⟩ :=
                  GateRecord.forM_check_eq_error.mp checked
                exact .version name (not_not.mp count) split current differs
  · intro fault
    cases fault with
    | name differs => rw [if_pos (Ne.symm differs)]
    | modules name differs =>
        rw [if_neg (not_not.mpr name.symm), if_pos differs]
        rfl
    | version name modules split current differs =>
        rw [if_neg (not_not.mpr name.symm), if_neg (not_not.mpr modules),
          GateRecord.forM_check_eq_error.mpr ⟨_, _, _, split, current, differs, rfl⟩]
        rfl

theorem checkObjects_eq_ok {bearers : List Bearer} {records : List ObjectRecord}
    (count : records.length = bearers.length) :
    checkObjects bearers records = .ok () ↔ List.Forall₂ Fits records bearers := by
  induction bearers generalizing records with
  | nil =>
      obtain rfl := List.eq_nil_of_length_eq_zero count
      simp [checkObjects]
  | cons b bearers ih =>
      cases records with
      | nil => cases count
      | cons record records =>
          rw [checkObjects, List.forall₂_cons, ← checkObject_eq_ok,
            ← ih (by simpa using count)]
          cases checkObject b record <;> simp

theorem checkObjects_eq_error {bearers : List Bearer} {records : List ObjectRecord}
    {e : GameError} :
    checkObjects bearers records = .error e ↔ FirstFault records bearers e := by
  constructor
  · intro refused
    fun_induction checkObjects bearers records with
    | case1 b bearers record records why checked =>
        cases refused
        exact .here records bearers (checkObject_eq_error.mp checked)
    | case2 b bearers record records checked ih =>
        exact .later (checkObject_eq_ok.mp checked) (ih refused)
    | case3 => cases refused
  · intro fault
    induction fault with
    | here records bearers fault => rw [checkObjects, checkObject_eq_error.mpr fault]
    | later fits fault ih => rw [checkObjects, checkObject_eq_ok.mpr fits, ih]

end Game

/-! ## What checking a roster finds -/

namespace Roster

/-- A roster record needs the current version, and then both numbers have to fit. -/
theorem checkRecord_eq (r : Roster) (record : RosterRecord) :
    r.checkRecord record =
      if record.version ≠ 1 then .error (.version record.version)
      else if record.count.toNat ≠ r.count then .error (.playerCount record.count r.count)
      else if record.players.length ≠ record.count.toNat then
        .error (.recordCount record.count record.players.length)
      else .ok () := by
  unfold checkRecord
  simp only [RosterRecord.current, version_refused_iff]

theorem checkRecord_eq_ok {r : Roster} {record : RosterRecord} :
    r.checkRecord record = .ok () ↔ record.Fits r := by
  rw [checkRecord_eq]
  constructor
  · intro accepted
    split at accepted
    · cases accepted
    · next version =>
        split at accepted
        · cases accepted
        · next count =>
            split at accepted
            · cases accepted
            · next players =>
                exact ⟨not_not.mp version, not_not.mp count,
                  (not_not.mp players).trans (not_not.mp count)⟩
  · intro fits
    rw [if_neg (not_not.mpr fits.version), if_neg (not_not.mpr fits.count),
      if_neg (not_not.mpr (fits.players.trans fits.count.symm))]

theorem checkRecord_eq_error {r : Roster} {record : RosterRecord} {e : RecordError} :
    r.checkRecord record = .error e ↔ record.Fault r e := by
  rw [checkRecord_eq]
  constructor
  · intro refused
    split at refused
    · next version =>
        cases refused
        exact .version version
    · next version =>
        split at refused
        · next count =>
            cases refused
            exact .playerCount (not_not.mp version) count
        · next count =>
            split at refused
            · next players =>
                cases refused
                exact .recordCount (not_not.mp version) (not_not.mp count) players
            · cases refused
  · intro fault
    cases fault with
    | version differs => rw [if_pos differs]
    | playerCount version differs => rw [if_neg (not_not.mpr version), if_pos differs]
    | recordCount version count differs =>
        rw [if_neg (not_not.mpr version), if_neg (not_not.mpr count), if_pos differs]

/-- A roster takes over exactly the records that fit it. -/
theorem restore_eq_ok {r restored : Roster} {record : RosterRecord} :
    r.restore record = .ok restored ↔
      record.Fits r ∧ restored = r.withRecords record.players := by
  unfold restore
  rw [← checkRecord_eq_ok]
  cases r.checkRecord record with
  | error e => simp
  | ok => simp [eq_comm]

end Roster

/-! ## Writing what has been checked -/

/-- A module with a saved state of its gate. -/
def Module.resume (m : Module) (record : GateRecord) : Module :=
  { m with gate := { m.gate with executed := record.executed, upgrading := false } }

/-- An object with saved states of its gates. -/
def Bearer.resume (b : Bearer) (record : ObjectRecord) : Bearer :=
  { b with modules := List.zipWith Module.resume b.modules record.modules }

namespace Bearer

/-- No gate refuses an entry of the current version. -/
theorem restoreGates_of_current {modules : List Module} {records : List GateRecord}
    (count : records.length = modules.length)
    (current : ∀ entry ∈ records, entry.version = 1) :
    restoreGates modules records = (.ok (), List.zipWith Module.resume modules records) := by
  induction modules generalizing records with
  | nil => simp [restoreGates]
  | cons m modules ih =>
      cases records with
      | nil => cases count
      | cons record records =>
          have accepted : m.gate.restore record = .ok (m.resume record).gate := by
            unfold Gate.restore
            rw [GateRecord.check_eq, if_pos (current record (by simp))]
            rfl
          have rest := ih (by simpa using count) fun entry mem => current entry (by simp [mem])
          rw [restoreGates, accepted, rest]
          rfl

theorem takeRecords_of_fits {b : Bearer} {record : ObjectRecord} (fits : record.Fits b) :
    b.takeRecords record.modules = (.ok (), b.resume record) := by
  unfold takeRecords
  rw [checkRecords_eq_ok.mpr ⟨fits.modules, fits.versions⟩]
  simp only [restoreGates_of_current fits.modules fits.versions]
  rfl

end Bearer

namespace Game

theorem restoreObjects_of_fits {bearers : List Bearer} {records : List ObjectRecord}
    (fits : List.Forall₂ ObjectRecord.Fits records bearers) :
    restoreObjects bearers records = (.ok (), List.zipWith Bearer.resume bearers records) := by
  induction fits with
  | nil => rfl
  | cons fit fits ih =>
      rw [restoreObjects, Bearer.takeRecords_of_fits fit, ih]
      rfl

/-- A saved game that fits is taken over completely. -/
theorem takeOver_of_fits {g : Game} {record : GameRecord} (fits : record.Fits g) :
    g.takeOver record = (.ok (), { g with
      roster := g.roster.withRecords record.roster.players
      objects := List.zipWith Bearer.resume g.objects record.objects }) := by
  have count := fits.objects.length_eq
  unfold takeOver Roster.restore
  rw [if_neg (not_not.mpr count), (checkObjects_eq_ok count).mpr fits.objects,
    Roster.checkRecord_eq_ok.mpr fits.roster, restoreObjects_of_fits fits.objects]
  rfl

/-- A saved game with a fault is refused for it before anything is written. -/
theorem takeOver_of_fault {g : Game} {record : GameRecord} {e : GameError}
    (fault : record.Fault g e) : g.takeOver record = (.error e, g) := by
  unfold takeOver Roster.restore
  cases fault with
  | objectCount differs => rw [if_pos differs]
  | object count fault => rw [if_neg (not_not.mpr count), checkObjects_eq_error.mpr fault]
  | roster objects fault =>
      have count := objects.length_eq
      rw [if_neg (not_not.mpr count), (checkObjects_eq_ok count).mpr objects,
        Roster.checkRecord_eq_error.mpr fault]

/-- A saved game that does not fit has a fault. -/
theorem fits_or_fault (g : Game) (record : GameRecord) :
    record.Fits g ∨ ∃ e, record.Fault g e := by
  by_cases count : record.objects.length = g.objects.length
  · cases checked : checkObjects g.objects record.objects with
    | error e => exact .inr ⟨e, .object count (checkObjects_eq_error.mp checked)⟩
    | ok =>
        have objects := (checkObjects_eq_ok count).mp checked
        cases accepted : g.roster.checkRecord record.roster with
        | error e => exact .inr ⟨_, .roster objects (Roster.checkRecord_eq_error.mp accepted)⟩
        | ok => exact .inl ⟨objects, Roster.checkRecord_eq_ok.mp accepted⟩
  · exact .inr ⟨_, .objectCount count⟩

/--
A saved game is taken over exactly when it fits.  Any other is refused for its
first fault, and the game stays as it was.
-/
theorem takeOver_all_or_nothing (g : Game) (record : GameRecord) :
    ((g.takeOver record).1 = .ok () ↔ record.Fits g) ∧
      (∀ e, (g.takeOver record).1 = .error e ↔ record.Fault g e) ∧
      (record.Fits g ∨ ∃ e, g.takeOver record = (.error e, g)) := by
  rcases fits_or_fault g record with fits | ⟨e, fault⟩
  · have taken := takeOver_of_fits fits
    refine ⟨iff_of_true (by rw [taken]) fits, fun e => ?_, .inl fits⟩
    refine iff_of_false (by rw [taken]; simp) fun fault => ?_
    rw [takeOver_of_fault fault] at taken
    cases taken
  · have refused := takeOver_of_fault fault
    have misfit : ¬ record.Fits g := fun fits => by
      rw [takeOver_of_fits fits] at refused
      cases refused
    refine ⟨iff_of_false (by rw [refused]; simp) misfit, fun other => ?_, .inr ⟨e, refused⟩⟩
    constructor
    · intro same
      rw [refused] at same
      cases same
      exact fault
    · intro otherFault
      rw [takeOver_of_fault otherFault]

end Game

end BattleRoster
