import BattleRoster.Proofs.Collection.FirstOccurrences
import BattleRoster.Proofs.Upgrade.Registration

/-!
# Which names are admitted

Names that are asked for are registered in the order in which they are first asked
for, each once, until the registry is full.  A request is refused exactly when there
is no room for all that is new in it.  A refusal leaves the registry full, so one rule
says what every request leaves behind, one that is refused half-way included.
-/

namespace BattleRoster

namespace Registry

/-- A registry after some names have been asked for. -/
def enrol (r : Registry) (names : List String) : Registry where
  names := (r.names ++ names).eraseDups.take UpgradeSet.capacity

/-- There is no room for all of some names. -/
def Overflows (r : Registry) (names : List String) : Prop :=
  UpgradeSet.capacity < (r.names ++ names).eraseDups.length

/-- What a request to register some names leads to. -/
inductive Admission {α : Type} (r : Registry) (names : List String) :
    Except UpgradeError α × Registry → Prop where
  | granted (a : α) (fits : ¬ r.Overflows names) : Admission r names (.ok a, r.enrol names)
  | refused (beyond : r.Overflows names) : Admission r names (.error .tooMany, r.enrol names)

section Enrol

variable {r : Registry} {names : List String}

theorem sound_enrol (r : Registry) (names : List String) : (r.enrol names).Sound :=
  ⟨List.length_take_le _ _, (nodup_eraseDups _).sublist (List.take_sublist _ _)⟩

/-- Names that are registered already make no difference. -/
theorem Sound.enrol_of_mem (sound : r.Sound) (known : ∀ name ∈ names, name ∈ r.names) :
    r.enrol names = r ∧ ¬ r.Overflows names := by
  have nothing : names.removeAll r.names = [] :=
    List.filter_eq_nil_iff.mpr fun name mem => by simpa using known name mem
  have same : (r.names ++ names).eraseDups = r.names := by
    rw [List.eraseDups_append, nothing, eraseDups_of_nodup sound.distinct]
    exact List.append_nil _
  constructor
  · rw [enrol, same, List.take_of_length_le sound.bounded]
  · rw [Overflows, same]
    exact Nat.not_lt.mpr sound.bounded

/-- A full registry stays as it is. -/
theorem Sound.enrol_of_full (sound : r.Sound) (full : r.size = UpgradeSet.capacity)
    (names : List String) : r.enrol names = r := by
  have first : (r.names ++ names).eraseDups.take r.names.length = r.names := by
    rw [List.eraseDups_append, eraseDups_of_nodup sound.distinct, List.take_left]
  rw [enrol, ← full, size, first]

theorem names_enrol_of_fits (fits : ¬ r.Overflows names) :
    (r.enrol names).names = (r.names ++ names).eraseDups :=
  List.take_of_length_le (Nat.not_lt.mp fits)

theorem size_enrol_of_overflows (beyond : r.Overflows names) :
    (r.enrol names).size = UpgradeSet.capacity :=
  List.length_take_of_le (Nat.le_of_lt beyond)

/-- Without room for some names there is none for more. -/
theorem Overflows.append (beyond : r.Overflows names) (more : List String) :
    r.Overflows (names ++ more) ∧ r.enrol (names ++ more) = r.enrol names := by
  have first : (r.names ++ (names ++ more)).eraseDups =
      (r.names ++ names).eraseDups ++ (more.removeAll (r.names ++ names)).eraseDups := by
    rw [← List.append_assoc, List.eraseDups_append]
  constructor
  · rw [Overflows, first, List.length_append]
    exact Nat.lt_add_right _ beyond
  · rw [enrol, first, List.take_append_of_le_length (Nat.le_of_lt beyond)]
    rfl

theorem overflows_append_of_fits (fits : ¬ r.Overflows names) (more : List String) :
    r.Overflows (names ++ more) ↔ (r.enrol names).Overflows more := by
  rw [Overflows, Overflows, names_enrol_of_fits fits, eraseDups_eraseDups_append, List.append_assoc]

/-- Names can be asked for in two requests. -/
theorem enrol_append (r : Registry) (names more : List String) :
    r.enrol (names ++ more) = (r.enrol names).enrol more := by
  by_cases beyond : r.Overflows names
  · rw [(beyond.append more).2,
      (sound_enrol r names).enrol_of_full (size_enrol_of_overflows beyond)]
  · rw [enrol, enrol, names_enrol_of_fits beyond, eraseDups_eraseDups_append, List.append_assoc]

/-- Only a full registry stays as it is when a name is new. -/
theorem Sound.enrol_eq_self_iff (sound : r.Sound) : r.enrol names = r ↔
    r.size = UpgradeSet.capacity ∨ ∀ name ∈ names, name ∈ r.names := by
  constructor
  · intro same
    by_cases beyond : r.Overflows names
    · refine .inl ?_
      rw [← size_enrol_of_overflows beyond, same]
    · refine .inr fun name mem => ?_
      rw [← same, names_enrol_of_fits beyond, List.mem_eraseDups]
      exact List.mem_append_right _ mem
  · rintro (full | known)
    · exact sound.enrol_of_full full names
    · exact (sound.enrol_of_mem known).1

/-- There is no room if the names that are new are more than the free places. -/
theorem Sound.overflows_iff (sound : r.Sound) : r.Overflows names ↔
    UpgradeSet.capacity < r.size + (names.removeAll r.names).eraseDups.length := by
  rw [Overflows, List.eraseDups_append, eraseDups_of_nodup sound.distinct, List.length_append]
  rfl

end Enrol

/-! ## Registering -/

section Requests

variable {r : Registry}

/-- A name is found, or it takes the next place, or the registry is full. -/
theorem Sound.register_admission (sound : r.Sound) (name : String) :
    Admission r [name] (r.register name) := by
  unfold register
  split
  · next set found =>
      obtain ⟨place, here, -⟩ := marks_of_find? found
      have known : ∀ other ∈ [name], other ∈ r.names :=
        List.forall_mem_singleton.mpr (List.mem_of_getElem? here)
      obtain ⟨same, fits⟩ := sound.enrol_of_mem known
      have granted := Admission.granted set fits
      rwa [same] at granted
  · next missing =>
      have new := sound.find?_eq_none.mp missing
      have grown : (r.names ++ [name]).eraseDups = r.names ++ [name] := by
        rw [eraseDups_concat, if_neg new, eraseDups_of_nodup sound.distinct]
      have length : (r.names ++ [name]).eraseDups.length = r.size + 1 := by
        rw [grown, List.length_append]
        rfl
      unfold UpgradeSet.single?
      by_cases room : r.size < UpgradeSet.capacity
      · have fits : ¬ r.Overflows [name] := by
          rw [Overflows, length]
          exact Nat.not_lt.mpr room
        have granted := Admission.granted (⟨BitVec.twoPow 128 r.size⟩ : UpgradeSet) fits
        have same : r.enrol [name] = { r with names := r.names ++ [name] } :=
          congrArg Registry.mk ((names_enrol_of_fits fits).trans grown)
        rw [if_pos room]
        rwa [same] at granted
      · have full : r.size = UpgradeSet.capacity :=
          Nat.le_antisymm sound.bounded (Nat.not_lt.mp room)
        have beyond : r.Overflows [name] := by
          rw [Overflows, length, full]
          exact Nat.lt_succ_self _
        have refused := Admission.refused (α := UpgradeSet) beyond
        rw [if_neg room]
        rwa [sound.enrol_of_full full] at refused

variable {α : Type} {names more : List String} {outcome : Except UpgradeError α × Registry}

theorem Admission.error_iff (admission : Admission r names outcome) :
    (∃ e, outcome.1 = .error e) ↔ r.Overflows names := by
  cases admission with
  | granted a fits => exact iff_of_false (by simp) fits
  | refused beyond => exact iff_of_true ⟨_, rfl⟩ beyond

/-- A request that is refused half-way. -/
theorem Admission.early (beyond : r.Overflows names) (more : List String) :
    Admission (α := α) r (names ++ more) (.error .tooMany, r.enrol names) := by
  obtain ⟨still, same⟩ := beyond.append more
  rw [← same]
  exact .refused still

/-- A request that goes on when its first names have been registered. -/
theorem Admission.sequel (next : Admission (r.enrol names) more outcome)
    (fits : ¬ r.Overflows names) : Admission r (names ++ more) outcome := by
  have whole := overflows_append_of_fits fits more
  cases next with
  | granted a rest =>
      rw [← enrol_append]
      exact .granted a (mt whole.mp rest)
  | refused beyond =>
      rw [← enrol_append]
      exact .refused (whole.mpr beyond)

theorem Sound.registerAll_admission (sound : r.Sound) (names : List String) :
    Admission r names (r.registerAll names) := by
  induction names generalizing r with
  | nil =>
      obtain ⟨same, fits⟩ := sound.enrol_of_mem (List.forall_mem_nil (· ∈ r.names))
      have granted := Admission.granted (∅ : UpgradeSet) fits
      rwa [same] at granted
  | cons name names ih =>
      have first := sound.register_admission name
      rw [registerAll]
      generalize r.register name = outcome at first
      cases first with
      | refused beyond => exact .early beyond names
      | granted set fits =>
          have rest := ih (sound_enrol r [name])
          dsimp only
          generalize (r.enrol [name]).registerAll names = outcome at rest
          change Admission r ([name] ++ names) _
          refine .sequel ?_ fits
          cases rest with
          | refused beyond => exact .refused beyond
          | granted sets fits => exact .granted (set ∪ sets) fits

end Requests

end Registry

/-! ## Building -/

open Registry

/-- The names of upgrades in a blueprint, in the order in which they are registered. -/
def Blueprint.mentions (b : Blueprint) : List String :=
  b.triggers ++ (b.conflicts ++ b.removes)

theorem Module.build_admission {r : Registry} (sound : r.Sound) (b : Blueprint) :
    Admission r b.mentions (build b r) := by
  have triggers := sound.registerAll_admission b.triggers
  unfold build
  generalize r.registerAll b.triggers = outcome at triggers
  cases triggers with
  | refused beyond => exact .early beyond _
  | granted triggers fits =>
      refine Admission.sequel ?_ fits
      have conflicts := (sound_enrol r b.triggers).registerAll_admission b.conflicts
      dsimp only
      generalize (r.enrol b.triggers).registerAll b.conflicts = outcome at conflicts
      cases conflicts with
      | refused beyond => exact .early beyond _
      | granted conflicts fits =>
          refine Admission.sequel ?_ fits
          have removes :=
            (sound_enrol (r.enrol b.triggers) b.conflicts).registerAll_admission b.removes
          dsimp only
          generalize ((r.enrol b.triggers).enrol b.conflicts).registerAll b.removes = outcome
            at removes
          cases removes with
          | refused beyond => exact .refused beyond
          | granted removes fits => exact .granted _ fits

namespace Game

/-- Whether there is a blueprint of a name. -/
def isKnown (known : List Blueprint) (name : String) : Bool :=
  (known.find? (·.name == name)).isSome

/-- What the blueprints of some names mention, up to the first name without a blueprint. -/
def mentioned (known : List Blueprint) (names : List String) : List String :=
  ((names.takeWhile (isKnown known)).filterMap fun name =>
    known.find? (·.name == name)).flatMap Blueprint.mentions

/-- What a request to build modules leads to. -/
inductive Construction (known : List Blueprint) (names : List String) (r : Registry) :
    Except GameError (List Module) × Registry → Prop where
  | built (modules : List Module) (fits : ¬ r.Overflows (mentioned known names))
      (all : ∀ name ∈ names, isKnown known name = true) :
      Construction known names r (.ok modules, r.enrol (mentioned known names))
  | full (beyond : r.Overflows (mentioned known names)) :
      Construction known names r (.error (.upgrade .tooMany), r.enrol (mentioned known names))
  | unknown (name : String) (fits : ¬ r.Overflows (mentioned known names))
      (first : names.find? (!isKnown known ·) = some name) :
      Construction known names r
        (.error (.unknownBlueprint name), r.enrol (mentioned known names))

section Construction

variable {known : List Blueprint} {name : String} {b : Blueprint}

theorem mentioned_of_none (missing : known.find? (·.name == name) = none) (names : List String) :
    mentioned known (name :: names) = [] := by
  simp [mentioned, isKnown, missing]

theorem mentioned_of_some (found : known.find? (·.name == name) = some b) (names : List String) :
    mentioned known (name :: names) = b.mentions ++ mentioned known names := by
  simp [mentioned, isKnown, found]

end Construction

/-- The names that are mentioned are registered, whether the modules are built or not. -/
theorem buildModules_construction (known : List Blueprint) (names : List String) {r : Registry}
    (sound : r.Sound) : Construction known names r (buildModules known names r) := by
  induction names generalizing r with
  | nil =>
      obtain ⟨same, fits⟩ := sound.enrol_of_mem (List.forall_mem_nil (· ∈ r.names))
      have built : Construction known [] r (.ok [], r.enrol []) :=
        .built [] fits (List.forall_mem_nil _)
      rwa [same] at built
  | cons name names ih =>
      unfold buildModules
      split
      · next missing =>
          obtain ⟨same, fits⟩ := sound.enrol_of_mem (List.forall_mem_nil (· ∈ r.names))
          rw [← mentioned_of_none missing names] at same fits
          have unknown := Construction.unknown name fits (by simp [isKnown, missing])
          rwa [same] at unknown
      · next b found =>
          have first := Module.build_admission sound b
          have all := mentioned_of_some found names
          generalize Module.build b r = outcome at first
          cases first with
          | refused beyond =>
              obtain ⟨still, same⟩ := beyond.append (mentioned known names)
              rw [← all] at still same
              rw [← same]
              exact .full still
          | granted m fits =>
              have rest := ih (sound_enrol r b.mentions)
              have whole := overflows_append_of_fits fits (mentioned known names)
              have same := enrol_append r b.mentions (mentioned known names)
              rw [← all] at whole same
              dsimp only
              generalize buildModules known names (r.enrol b.mentions) = outcome at rest
              cases rest with
              | built modules fits each =>
                  rw [← same]
                  refine .built (m :: modules) (mt whole.mp fits)
                    (List.forall_mem_cons.mpr ⟨?_, each⟩)
                  rw [isKnown, found, Option.isSome_some]
              | full beyond =>
                  rw [← same]
                  exact .full (whole.mpr beyond)
              | unknown missing fits first =>
                  rw [← same]
                  refine .unknown missing (mt whole.mp fits) ?_
                  rw [List.find?_cons_of_neg (by simp [isKnown, found]), first]

end Game

end BattleRoster
