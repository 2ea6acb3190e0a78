import BattleRoster.Proofs.Roster.Stances

/-!
# Names of players

A name leads to the first active player that bears it.  In a new game the active players
bear the names of the named sides, in the order of these, so a name leads to a player
exactly if some side has it, and it leads to each player if no two sides share one.
-/

namespace BattleRoster

namespace Roster

/-- A slot is the first active one whose player bears a name. -/
structure FirstNamed (r : Roster) (name : String) (slot : Slot) : Prop where
  active : slot.val < r.count
  named : (r.player slot).name = name
  first : ∀ earlier < slot, (r.player earlier).name ≠ name

variable {r : Roster} {name : String} {slot : Slot}

/-- Of two slots that are the first ones with a name, neither comes before the other. -/
theorem FirstNamed.unique {other : Slot} (this : r.FirstNamed name slot)
    (that : r.FirstNamed name other) : slot = other := by
  rcases lt_trichotomy slot other with before | same | after
  · exact absurd this.named (that.first slot before)
  · exact same
  · exact absurd that.named (this.first other after)

theorem firstNamed_of_find? (found : r.find? name = some slot) : r.FirstNamed name slot := by
  refine ⟨active_of_find? found, name_of_find? found, fun earlier before => ?_⟩
  obtain ⟨-, front, back, cut, passed⟩ := List.find?_eq_some_iff_append.mp found
  have mem : earlier ∈ front ++ slot :: back :=
    cut ▸ mem_active.mpr (Nat.lt_trans before (active_of_find? found))
  have ascending : (front ++ slot :: back).Pairwise (· < ·) := cut ▸ Slot.pairwise_filter _
  rcases List.mem_append.mp mem with ahead | behind
  · simpa using passed earlier ahead
  · rcases List.mem_cons.mp behind with rfl | behind
    · exact absurd before (lt_irrefl _)
    · have after := (List.pairwise_append.mp ascending).2.1
      have later := (List.pairwise_cons.mp after).1 earlier behind
      exact absurd before (lt_asymm later)

/-- A name leads to the first active player that bears it. -/
theorem find?_eq_some_iff : r.find? name = some slot ↔ r.FirstNamed name slot := by
  refine ⟨firstNamed_of_find?, fun first => ?_⟩
  have borne : (r.find? name).isSome = true :=
    List.find?_isSome.mpr ⟨slot, mem_active.mpr first.active, beq_iff_eq.mpr first.named⟩
  obtain ⟨other, found⟩ := Option.isSome_iff_exists.mp borne
  rw [found, (firstNamed_of_find? found).unique first]

/-! ## The names of a new game -/

variable {sides : List Side}

/-- Every side speaks for an active slot with the name of its player. -/
theorem exists_nameAt {side : Side} (mem : side ∈ sides) (few : namedCount sides ≤ 15) :
    ∃ slot : Slot, slot.val < namedCount sides + 1 ∧ nameAt sides slot = side.playerName := by
  by_cases named : side.isNamed = true
  · obtain ⟨n, lt, here⟩ := List.getElem_of_mem (List.mem_filter.mpr ⟨mem, named⟩)
    have bound : n < namedCount sides := lt
    have player : (⟨n + 1, by omega⟩ : Slot) ≠ Slot.neutral := fun same =>
      Nat.succ_ne_zero n (congrArg Fin.val same)
    refine ⟨⟨n + 1, by omega⟩, Nat.succ_lt_succ bound, ?_⟩
    simp [nameAt, sideAt?, player, here, List.getElem?_eq_getElem lt]
  · refine ⟨Slot.neutral, Nat.succ_pos _, ?_⟩
    have nameless : side.playerName = "" := by simpa [Side.isNamed] using named
    rw [nameless, nameAt_neutral]

/-- A player with a name has it from its side. -/
theorem exists_side_of_nameAt (named : nameAt sides slot ≠ "") :
    ∃ side ∈ sides, side.playerName = nameAt sides slot := by
  unfold nameAt at named ⊢
  cases seated : sideAt? sides slot with
  | none =>
      rw [seated] at named
      exact absurd rfl named
  | some side =>
      refine ⟨side, ?_, rfl⟩
      unfold sideAt? at seated
      split at seated
      · cases seated
      · exact List.mem_of_mem_filter (List.mem_of_getElem? seated)

/-- Players with different names have different slots. -/
theorem nameAt_injective
    (distinct : ((sides.filter (·.isNamed)).map Side.playerName).Nodup) {i j : Slot}
    (activeI : i.val < namedCount sides + 1) (activeJ : j.val < namedCount sides + 1)
    (same : nameAt sides i = nameAt sides j) : i = j := by
  -- a player other than the neutral one bears the name in the place before its slot
  have place {slot : Slot} (active : slot.val < namedCount sides + 1)
      (player : slot ≠ Slot.neutral) :
      slot.val - 1 < ((sides.filter (·.isNamed)).map Side.playerName).length ∧
        ((sides.filter (·.isNamed)).map Side.playerName)[slot.val - 1]? =
          some (nameAt sides slot) := by
    have positive : slot.val ≠ 0 := fun zero => player (Fin.ext zero)
    have bound : slot.val - 1 < (sides.filter (·.isNamed)).length := by
      change slot.val - 1 < namedCount sides
      omega
    refine ⟨by rwa [List.length_map], ?_⟩
    simp [nameAt, sideAt?, player, List.getElem?_eq_getElem bound]
  by_cases neutralI : i = Slot.neutral
  · by_cases neutralJ : j = Slot.neutral
    · rw [neutralI, neutralJ]
    · refine absurd ?_ (nameAt_ne_empty activeJ neutralJ)
      rw [← same, neutralI, nameAt_neutral]
  · by_cases neutralJ : j = Slot.neutral
    · refine absurd ?_ (nameAt_ne_empty activeI neutralI)
      rw [same, neutralJ, nameAt_neutral]
    · obtain ⟨boundI, hereI⟩ := place activeI neutralI
      obtain ⟨-, hereJ⟩ := place activeJ neutralJ
      have places := (List.getElem?_inj boundI distinct).mp (hereI.trans (same ▸ hereJ.symm))
      have positiveI : i.val ≠ 0 := fun zero => neutralI (Fin.ext zero)
      have positiveJ : j.val ≠ 0 := fun zero => neutralJ (Fin.ext zero)
      exact Fin.ext (by omega)

section NewGame

variable {σ : Type} [TeamSource σ] {o : Options} {teams : σ} {set : NewGame σ}

/-- Who is the first with a name in a new game is up to the sides. -/
theorem firstNamed_newGame (started : newGame o sides r teams = .ok set) :
    set.roster.FirstNamed name slot ↔ slot.val < namedCount sides + 1 ∧
      nameAt sides slot = name ∧ ∀ earlier < slot, nameAt sides earlier ≠ name := by
  rw [← count_newGame started]
  simp only [← name_newGame started]
  exact ⟨fun ⟨active, named, first⟩ => ⟨active, named, first⟩,
    fun ⟨active, named, first⟩ => ⟨active, named, first⟩⟩

/-- A name leads to a player of a new game exactly if a side has it. -/
theorem isSome_find?_newGame (started : newGame o sides r teams = .ok set) (filled : name ≠ "") :
    (set.roster.find? name).isSome = sides.any (·.playerName == name) := by
  rw [Bool.eq_iff_iff, List.any_eq_true, find?, List.find?_isSome]
  simp only [mem_active, beq_iff_eq, count_newGame started, name_newGame started]
  constructor
  · rintro ⟨slot, -, rfl⟩
    exact exists_side_of_nameAt filled
  · rintro ⟨side, mem, rfl⟩
    exact exists_nameAt mem (namedCount_le_of_newGame started)

/-- Where no two sides share a name, the name of a player leads to that player. -/
theorem find?_name_newGame (started : newGame o sides r teams = .ok set)
    (distinct : ((sides.filter (·.isNamed)).map Side.playerName).Nodup)
    (active : slot.val < set.roster.count) :
    set.roster.find? (set.roster.player slot).name = some slot := by
  rw [find?_eq_some_iff]
  refine ⟨active, rfl, fun earlier before same => ?_⟩
  rw [count_newGame started] at active
  rw [name_newGame started, name_newGame started] at same
  have here := nameAt_injective distinct (Nat.lt_trans before active) active same
  exact absurd here (ne_of_lt before)

end NewGame

end Roster

end BattleRoster
