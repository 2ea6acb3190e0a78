import BattleRoster.Proofs.Session.Accounts

/-!
# Names of objects and modules

Objects and modules are named by the command that spawns them, and no other
command, whatever it restores, gives them other names.
-/

namespace BattleRoster

/-- The names that a command gives to an object and to its modules. -/
def Command.labels : Command → List String
  | .spawn _ object modules => object :: modules
  | _ => []

theorem Command.labels_subset_words (c : Command) : c.labels ⊆ c.words := by
  cases c with
  | spawn owner object modules =>
      exact List.subset_cons_of_subset _ (List.subset_cons_of_subset _ (List.Subset.refl _))
  | _ => exact List.nil_subset _

/-- The names of an object and of its modules. -/
def Bearer.texts (b : Bearer) : List String :=
  b.name :: b.modules.map Module.name

theorem Bearer.texts_frame (b : Bearer) : b.frame.texts = b.texts := by
  simp [texts, frame, Module.unfired]

theorem Bearer.texts_of_frame_eq {b b' : Bearer} (same : b'.frame = b.frame) :
    b'.texts = b.texts := by
  rw [← b'.texts_frame, same, texts_frame]

namespace Game

/-- The names of all objects and modules. -/
def objectTexts (g : Game) : List String :=
  g.objects.flatMap Bearer.texts

theorem objectTexts_of_frames {g g' : Game}
    (same : g'.objects.map Bearer.frame = g.objects.map Bearer.frame) :
    g'.objectTexts = g.objectTexts := by
  have framed (g : Game) : g.objectTexts = (g.objects.map Bearer.frame).flatMap Bearer.texts := by
    rw [objectTexts, List.flatMap_map]
    exact List.flatMap_congr fun b _ => b.texts_frame.symm
  rw [framed, same, ← framed]

theorem objectTexts_of_fitting {g : Game} {f : Fitting} (among : f ∈ g.fittings) :
    f.object ∈ g.objectTexts ∧ f.module.name ∈ g.objectTexts := by
  obtain ⟨b, mem, inside⟩ := List.mem_flatMap.mp among
  obtain ⟨m, there, rfl⟩ := List.mem_map.mp inside
  have named : m.name ∈ b.texts := List.mem_cons_of_mem _ (List.mem_map_of_mem there)
  exact ⟨List.mem_flatMap.mpr ⟨b, mem, List.mem_cons_self⟩,
    List.mem_flatMap.mpr ⟨b, mem, named⟩⟩

/-- Objects and modules have the names with which they are spawned. -/
theorem mem_objectTexts_step (files : Files) {g : Game} (sound : g.Sound) {c : Command}
    {text : String} (mem : text ∈ (g.step files c).2.objectTexts) :
    text ∈ g.objectTexts ∨ text ∈ c.labels := by
  have kept {g' : Game} (mem : text ∈ g'.objectTexts)
      (same : g'.objects.map Bearer.frame = g.objects.map Bearer.frame) : text ∈ g.objectTexts :=
    objectTexts_of_frames same ▸ mem
  cases c with
  | newGame =>
      rw [objectTexts, objects_begun] at mem
      cases mem
  | spawn owner object names =>
      change text ∈ (g.spawn owner object names).2.objectTexts at mem
      rcases spawn_cases g owner object names with
        ⟨e, registry, refused⟩ | ⟨slot, modules, registry, -, named, -, spawned⟩
      · rw [refused] at mem
        exact .inl mem
      · rw [spawned, objectTexts, List.flatMap_append, List.flatMap_singleton,
          Bearer.texts_of_frame_eq (Bearer.frame_update _ _), Bearer.texts, named] at mem
        exact List.mem_append.mp mem
  | _ => exact .inl (kept mem (frames_step sound files nofun nofun))

end Game

end BattleRoster
