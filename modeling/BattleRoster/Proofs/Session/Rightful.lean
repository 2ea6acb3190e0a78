import BattleRoster.Proofs.Session.Replies
import BattleRoster.Proofs.Session.Succession
import BattleRoster.Proofs.Session.TakingBack
import BattleRoster.Proofs.Upgrade.Evaluation

/-!
# Executed modules are justified

A module that has fired is justified by the upgrades that its owner holds, in
every game in which only saved games of the same game are restored.  Upgrades
are given and taken together with an evaluation of the owner's objects.  A saved
game that is accepted has as many objects as the game; since objects are only
ever added, they are the same ones, and their modules are taken back together
with the upgrades that justified them.
-/

namespace BattleRoster

/-! ## Games and what was saved of them -/

/-- The earlier saved games that are of the same game after a command. -/
def Command.keeps : Command → List GameRecord → List GameRecord
  | .newGame, _ => []
  | _, saved => saved

theorem Command.keeps_of_ne {c : Command} (other : c ≠ .newGame) (saved : List GameRecord) :
    c.keeps saved = saved := by
  cases c with
  | newGame => exact absurd rfl other
  | _ => rfl

/--
The games that commands lead to, each with the saved games that were written
since it was begun, when every request to restore that is accepted carries one
of these.
-/
inductive Game.InPlay : Game → List GameRecord → Prop where
  | start (options : Options) : InPlay { options } []
  | step {g : Game} {saved : List GameRecord} (files : Files) (c : Command)
      (earlier : InPlay g saved)
      (own : ∀ text, c = .restore text → (g.step files c).1 = .responses [.restored] →
        ∃ record ∈ saved, GameRecord.read? text = some record) :
      InPlay (g.step files c).2 (c.keeps saved ++ (g.step files c).1.saved)

/-! ## Rightful objects -/

/-- An object of an active player whose upgrades justify its executed modules. -/
structure Bearer.Rightful (b : Bearer) (r : Roster) : Prop where
  owned : b.owner.val < r.count
  unarmed : b.upgrades = ∅
  justified : b.Justified (r.player b.owner).upgrades

namespace Bearer.Rightful

variable {b : Bearer} {r : Roster}

/-- An object stays rightful when its owner holds no less. -/
theorem mono (rightful : b.Rightful r) {r' : Roster} (count : r'.count = r.count)
    (kept : ∀ place ∈ (r.player b.owner).upgrades, place ∈ (r'.player b.owner).upgrades) :
    b.Rightful r' :=
  ⟨count ▸ rightful.owned, rightful.unarmed, rightful.justified.mono kept⟩

/-- Evaluating an object with the upgrades of its owner keeps it rightful. -/
theorem update (rightful : b.Rightful r) :
    (b.update (r.player b.owner).upgrades).2.Rightful r := by
  refine ⟨?_, (update_of_empty rightful.unarmed _).1, ?_⟩
  · rw [owner_update]
    exact rightful.owned
  · rw [owner_update]
    exact rightful.justified.update rightful.unarmed

end Bearer.Rightful

namespace Game

def Rightful (g : Game) : Prop :=
  ∀ b ∈ g.objects, b.Rightful g.roster

variable {g : Game}

theorem Rightful.of_state (rightful : g.Rightful) {g' : Game}
    (same : g'.roster = g.roster ∧ g'.objects = g.objects) : g'.Rightful := by
  intro b mem
  rw [same.1]
  exact rightful b (same.2 ▸ mem)

/-- A new object has fired only what its owner's upgrades justify. -/
theorem Rightful.spawn (rightful : g.Rightful) (owner object : String) (names : List String) :
    (g.spawn owner object names).2.Rightful := by
  rcases spawn_cases g owner object names with
    ⟨e, registry, refused⟩ | ⟨slot, modules, registry, resolved, -, fresh, spawned⟩
  · rw [refused]
    exact rightful
  · rw [spawned]
    have unfired : Bearer.Rightful { name := object, owner := slot, modules } g.roster := by
      refine ⟨active_of_resolve resolved, rfl, fun m mem executed => ?_⟩
      rw [(fresh m mem).1] at executed
      cases executed
    intro b mem
    rcases List.mem_append.mp mem with mem | mem
    · exact rightful b mem
    · obtain rfl := List.mem_singleton.mp mem
      exact unfired.update

/-- Upgrades are given to a player before its objects are evaluated. -/
theorem Rightful.grant (rightful : g.Rightful) (player upgrade : String) :
    (g.grant player upgrade).2.Rightful := by
  rcases grant_cases g player upgrade with
    ⟨e, refused⟩ | ⟨slot, set, registry, -, -, granted⟩
  · rw [refused]
    exact rightful
  · rw [granted]
    intro b mem
    obtain ⟨earlier, among, rfl⟩ := List.mem_map.mp mem
    have armed : earlier.Rightful (g.roster.modify slot (·.addUpgrades set)) := by
      refine (rightful earlier among).mono rfl fun place holds => ?_
      rw [Roster.player_modify]
      split
      · next owns => exact UpgradeSet.mem_union.mpr (.inl (owns ▸ holds))
      · exact holds
    dsimp only
    split
    · next owned =>
        subst owned
        exact g.roster.upgrades_addUpgrades earlier.owner set ▸ armed.update
    · exact armed

/-- What is taken from a player resets the modules that depend on it. -/
theorem Rightful.revoke (rightful : g.Rightful) (player upgrade : String) :
    (g.revoke player upgrade).2.Rightful := by
  rcases revoke_cases g player upgrade with ⟨e, refused⟩ | ⟨slot, set, -, -, revoked⟩
  · rw [refused]
    exact rightful
  · rw [revoked]
    intro b mem
    obtain ⟨earlier, among, rfl⟩ := List.mem_map.mp mem
    obtain ⟨owned, unarmed, justified⟩ := rightful earlier among
    dsimp only
    split
    · next owns =>
        subst owns
        refine ⟨owned, unarmed, ?_⟩
        exact g.roster.upgrades_removeUpgrades earlier.owner set ▸ justified.resetModules set
    · next other =>
        refine ⟨owned, unarmed, ?_⟩
        rw [Roster.player_modify, if_neg (Ne.symm other)]
        exact justified

/-! ## Taking over a saved game of the same game -/

/-- Each object takes back the modules of the object with its frame. -/
theorem mem_withModules {bearers bearers' : List Bearer}
    (same : bearers'.map Bearer.frame = bearers.map Bearer.frame) {b : Bearer}
    (mem : b ∈ withModules bearers' bearers) :
    ∃ later ∈ bearers', ∃ earlier ∈ bearers, later.frame = earlier.frame ∧
      b = { later with modules := earlier.modules } := by
  induction bearers generalizing bearers' with
  | nil =>
      obtain rfl := List.map_eq_nil_iff.mp same
      cases mem
  | cons first bearers ih =>
      cases bearers' with
      | nil => cases same
      | cons first' bearers' =>
          obtain ⟨frame, rest⟩ := List.cons.inj same
          rcases List.mem_cons.mp mem with rfl | mem
          · exact ⟨first', by simp, first, by simp, frame, rfl⟩
          · obtain ⟨later, among', earlier, among, found⟩ := ih rest mem
            exact ⟨later, by simp [among'], earlier, by simp [among], found⟩

/-- Active players take their upgrades back from the record of a roster. -/
theorem upgrades_withRecords {r earlier : Roster} (sound : earlier.Sound) {slot : Slot}
    (active : slot.val < earlier.count) :
    ((r.withRecords earlier.record.players).player slot).upgrades =
      (earlier.player slot).upgrades := by
  rw [Roster.player_withRecords, Roster.getElem?_players_record sound, if_pos active]
  rfl

/-- Upgrades and executed modules of a rightful game are taken back together. -/
theorem Rightful.takeOver {g earlier : Game} (rightful : g.Rightful)
    (earlierRightful : earlier.Rightful) (sound : earlier.Sound)
    (goesOn : g.GoesOnFrom earlier) : (g.takeOver earlier.record).2.Rightful := by
  rcases fits_or_fault g earlier.record with fits | ⟨e, fault⟩
  · -- an accepted record has as many objects, so none has been added since
    have count : earlier.objects.length = g.objects.length := by
      have lengths := fits.objects.length_eq
      rwa [record, List.length_map] at lengths
    have same : g.objects.map Bearer.frame = earlier.objects.map Bearer.frame :=
      (goesOn.eq_of_length (by rw [List.length_map, List.length_map, count])).symm
    obtain ⟨-, resumed⟩ := resumeAll_record sound.idle same
    rw [takeOver_of_fits fits]
    intro b mem
    have kept : b ∈ withModules g.objects earlier.objects := by
      rw [← resumed]
      exact mem
    obtain ⟨later, among', old, among, frame, rfl⟩ := mem_withModules same kept
    have owner : later.owner = old.owner := (congrArg Bearer.owner frame :)
    obtain ⟨owned, unarmed, -⟩ := rightful later among'
    obtain ⟨active, -, justified⟩ := earlierRightful old among
    refine ⟨owned, unarmed, ?_⟩
    change Bearer.Justified _
      ((g.roster.withRecords earlier.roster.record.players).player later.owner).upgrades
    rw [owner, upgrades_withRecords sound.roster active]
    exact justified
  · rw [takeOver_of_fault fault]
    exact rightful

/-! ## Games in play -/

/-- The saved games are those of rightful games from which a game goes on. -/
def Recalls (g : Game) (saved : List GameRecord) : Prop :=
  ∀ record ∈ saved, ∃ earlier : Game,
    earlier.record = record ∧ earlier.Sound ∧ earlier.Rightful ∧ g.GoesOnFrom earlier

/-- Objects stay rightful if what is restored was saved of rightful ones. -/
theorem Rightful.step {g : Game} {saved : List GameRecord} (rightful : g.Rightful)
    (recalls : g.Recalls saved) {files : Files} {c : Command}
    (own : ∀ text, c = .restore text → (g.step files c).1 = .responses [.restored] →
      ∃ record ∈ saved, GameRecord.read? text = some record) :
    (g.step files c).2.Rightful := by
  cases c with
  | newGame =>
      intro b mem
      rw [objects_begun] at mem
      cases mem
  | spawn owner object modules => exact rightful.spawn owner object modules
  | grant player upgrade => exact rightful.grant player upgrade
  | revoke player upgrade => exact rightful.revoke player upgrade
  | restore text =>
      rcases step_restore files g text with ⟨record, read, -, accepted⟩ | refused
      · obtain ⟨printed, kept, same⟩ := own text rfl (by rw [accepted])
        obtain rfl := Option.some.inj (same.symm.trans read)
        obtain ⟨earlier, rfl, earlierSound, earlierRightful, goesOn⟩ := recalls printed kept
        rw [accepted]
        exact rightful.takeOver earlierRightful earlierSound goesOn
      · rw [refused]
        exact rightful
  | _ => exact rightful.of_state (state_step files g rfl)

/-- What was saved is recalled until a new game is begun. -/
theorem Recalls.step {g : Game} {saved : List GameRecord} (recalls : g.Recalls saved)
    (sound : g.Sound) (rightful : g.Rightful) (files : Files) (c : Command) :
    (g.step files c).2.Recalls (c.keeps saved ++ (g.step files c).1.saved) := by
  intro record mem
  rcases List.mem_append.mp mem with kept | new
  · by_cases begun : c = .newGame
    · subst begun
      cases kept
    · rw [Command.keeps_of_ne begun] at kept
      obtain ⟨earlier, same, earlierSound, earlierRightful, goesOn⟩ := recalls record kept
      exact ⟨earlier, same, earlierSound, earlierRightful,
        goesOn.trans (goesOn_step sound files begun)⟩
  · by_cases saves : c = .save
    · subst saves
      obtain rfl := List.mem_singleton.mp new
      exact ⟨g, rfl, sound, rightful, List.prefix_rfl⟩
    · rw [saved_step saves] at new
      cases new

namespace InPlay

variable {g : Game} {saved : List GameRecord}

theorem reachable (inPlay : g.InPlay saved) : g.Reachable := by
  induction inPlay with
  | start options => exact .start options
  | step files c earlier own ih => exact .step files c ih

/-- A game in play is rightful, and recalls rightful ones. -/
theorem rightful (inPlay : g.InPlay saved) : g.Rightful ∧ g.Recalls saved := by
  induction inPlay with
  | start options => exact ⟨by simp [Rightful], by simp [Recalls]⟩
  | step files c earlier own ih =>
      obtain ⟨rightful, recalls⟩ := ih
      exact ⟨rightful.step recalls own, recalls.step earlier.reachable.sound rightful files c⟩

end InPlay

/--
A module that has been executed has triggers, and its owner holds what they ask
for: all of them if the module needs all, and otherwise one of them.
-/
theorem executed_justified {g : Game} {saved : List GameRecord} (inPlay : g.InPlay saved) :
    ∀ b ∈ g.objects, ∀ m ∈ b.modules, m.gate.executed = true →
      m.gate.Justified (g.roster.player b.owner).upgrades := by
  intro b mem m among executed
  exact (inPlay.rightful.1 b mem).justified m among executed

/-- A module that is reset and then restored is justified, since its upgrade is back too. -/
theorem executed_justified_restored :
    let files : Files := { find := fun _ => .ok "[[\"Saw\",[\"Steel\"]]]".toUTF8 }
    let loaded := (step files {} (.loadBlueprints "mill")).2
    let fired :=
      ((loaded.step files (.spawn "-" "Mill" ["Saw"])).2.step files (.grant "-" "Steel")).2
    let undone := ((fired.step files .save).2.step files (.revoke "-" "Steel")).2
    let g := (undone.step files (.restore fired.record.encode)).2
    let executed (g : Game) := g.objects.map fun b => b.modules.map (·.gate.executed)
    executed fired = [[true]] ∧ executed undone = [[false]] ∧ executed g = [[true]] ∧
      (∃ saved, g.InPlay saved) ∧
      ∀ b ∈ g.objects, ∀ m ∈ b.modules, m.gate.executed = true →
        m.gate.Justified (g.roster.player b.owner).upgrades := by
  intro files loaded fired undone g executed
  have started := (InPlay.start {}).step files (.loadBlueprints "mill") (by rintro text ⟨⟩)
  have spawned := started.step files (.spawn "-" "Mill" ["Saw"]) (by rintro text ⟨⟩)
  have granted := spawned.step files (.grant "-" "Steel") (by rintro text ⟨⟩)
  have kept := granted.step files .save (by rintro text ⟨⟩)
  have revoked := kept.step files (.revoke "-" "Steel") (by rintro text ⟨⟩)
  have restored := revoked.step files (.restore fired.record.encode) (by
    rintro _ ⟨⟩ -
    refine ⟨fired.record, ?_, GameRecord.read?_encode _⟩
    exact List.mem_append_left _ (List.mem_append_right _ (List.mem_singleton_self _)))
  -- for any game, so that nothing is evaluated when the two sides are compared
  have taken (g : Game) (record : GameRecord) :
      (g.step files (.restore record.encode)).2 = (g.takeOver record).2 :=
    congrArg Prod.snd (step_restore_encode files g record)
  have back : g = (undone.takeOver fired.record).2 := taken undone fired.record
  have again : executed (undone.takeOver fired.record).2 = [[true]] := by decide +kernel
  exact ⟨by decide +kernel, by decide +kernel, back ▸ again, ⟨_, restored⟩,
    executed_justified restored⟩

end Game

end BattleRoster
