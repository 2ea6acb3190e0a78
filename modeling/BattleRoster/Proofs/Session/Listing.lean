import BattleRoster.Proofs.Roster.MuteSides
import BattleRoster.Proofs.Session.Commands
import BattleRoster.Proofs.Session.Lines
import BattleRoster.Proofs.Session.Reachable
import BattleRoster.Proofs.Side.OneLine

/-!
# The listing of sides

Sides that were given as lines are listed as lines, which lead to the same sides
again, with one exception: a side with nothing in it is listed as a line without
a side, and that is not a command.  A new game does not miss it.  A new game that
is refused, however, leaves every session with the roster that it had.
-/

namespace BattleRoster

/-! ## Where sides come from -/

/-- Whether a command takes sides from a file. -/
def Command.loadsSides : Command → Bool
  | .loadSides _ => true
  | _ => false

namespace Side

/-- A side that a line without a line feed leads to. -/
structure Told (s : Side) : Prop where
  wellFormed : s.WellFormed
  isBare : s.bare = s
  lines : ∀ text ∈ s.texts, Text.IsLine text

theorem told_of_parse {line : String} {s : Side} (isLine : Text.IsLine line)
    (parsed : parse line = .ok s) : s.Told := by
  obtain ⟨wellFormed, isBare⟩ := wellFormed_of_parse parsed
  exact ⟨wellFormed, isBare, isLine_of_parse isLine parsed⟩

/-- Without its buildings a side is still one that a line leads to. -/
theorem Told.release {s : Side} (told : s.Told) : s.release.2.Told := by
  obtain ⟨⟨keys, texts, teams, -⟩, -, lines⟩ := told
  exact ⟨⟨keys, texts, teams, fun _ none => nomatch none⟩, rfl,
    fun text mem => lines text (mem_texts_release mem)⟩

end Side

namespace Game

/-- Where a side comes from that is pending after a step. -/
inductive SideSource (files : Files) (g : Game) (s : Side) : Command → Prop where
  | kept {c : Command} (pending : s ∈ g.sides) : SideSource files g s c
  | line {line : String} (parsed : Side.parse line = .ok s) : SideSource files g s (.addSide line)
  | file {path : String} {sides : List Side} (loaded : Side.loadAll files path = .ok sides)
      (among : s ∈ sides) : SideSource files g s (.loadSides path)
  | released {earlier : Side} (pending : earlier ∈ g.sides) (same : s = earlier.release.2) :
      SideSource files g s .newGame

/-- No command makes up a side. -/
theorem sideSource_step {files : Files} {g : Game} {c : Command} {s : Side}
    (mem : s ∈ (g.step files c).2.sides) : SideSource files g s c := by
  cases c with
  | handshake | ping | listSides | listPlayers | stance player other | mask source filter | save
  | quit => exact .kept mem
  | clearSides => cases mem
  | setOption name value =>
      unfold step at mem
      dsimp only at mem
      split at mem <;> exact .kept mem
  | addSide line =>
      cases parsed : Side.parse line with
      | error e =>
          simp only [step, addSide, parsed] at mem
          exact .kept mem
      | ok side =>
          simp only [step, addSide, parsed] at mem
          rcases List.mem_append.mp mem with mem | mem
          · exact .kept mem
          · exact .line (List.mem_singleton.mp mem ▸ parsed)
  | loadSides path =>
      cases loaded : Side.loadAll files path with
      | error e =>
          simp only [step, loadSides, loaded] at mem
          exact .kept mem
      | ok sides =>
          simp only [step, loadSides, loaded] at mem
          exact .file loaded mem
  | newGame =>
      unfold step newGame at mem
      dsimp only at mem
      split at mem
      · next set started =>
          dsimp only at mem
          rw [Roster.sides_newGame started] at mem
          obtain ⟨earlier, pending, same⟩ := List.mem_map.mp mem
          split at same
          · exact .released pending same.symm
          · exact .kept (same ▸ pending)
      · exact .kept mem
  | loadBlueprints path =>
      have unchanged : (g.step files (.loadBlueprints path)).2.sides = g.sides := by
        unfold step loadBlueprints
        dsimp only
        split
        · next loaded =>
            split at loaded
            · cases loaded
            · split at loaded <;> cases loaded
              rfl
        · rfl
      exact .kept (unchanged ▸ mem)
  | spawn owner object modules =>
      rcases spawn_cases g owner object modules with
        ⟨e, registry, refused⟩ | ⟨slot, built, registry, -, -, -, spawned⟩
      · simp only [step, refused] at mem
        exact .kept mem
      · simp only [step, spawned] at mem
        exact .kept mem
  | grant player upgrade =>
      rcases grant_cases g player upgrade with ⟨e, refused⟩ |
        ⟨slot, set, registry, -, -, done⟩
      · simp only [step, refused] at mem
        exact .kept mem
      · simp only [step, done] at mem
        exact .kept mem
  | revoke player upgrade =>
      rcases revoke_cases g player upgrade with ⟨e, refused⟩ | ⟨slot, set, -, -, done⟩
      · simp only [step, refused] at mem
        exact .kept mem
      · simp only [step, done] at mem
        exact .kept mem
  | restore text =>
      rcases step_restore files g text with ⟨record, -, fits, accepted⟩ | refused
      · rw [accepted, takeOver_of_fits fits] at mem
        exact .kept mem
      · rw [refused] at mem
        exact .kept mem

/-! ## Typed lines -/

/-- The game after a line; one that is not a command is ignored. -/
def afterLine (files : Files) (g : Game) (line : String) : Game :=
  match g.stepLine files line with
  | some (_, next) => next
  | none => g

/-- The game after some lines. -/
def afterLines (files : Files) (g : Game) (lines : List String) : Game :=
  lines.foldl (afterLine files) g

theorem afterLine_command {files : Files} {g : Game} {line : String} {c : Command}
    (parsed : Command.parse? line = some c) : g.afterLine files line = (g.step files c).2 := by
  rw [afterLine, stepLine, parsed]
  rfl

theorem afterLine_ignored {files : Files} {g : Game} {line : String}
    (unknown : Command.parse? line = none) : g.afterLine files line = g := by
  rw [afterLine, stepLine, unknown]
  rfl

/-- All pending sides are ones that lines lead to. -/
def Told (g : Game) : Prop :=
  ∀ s ∈ g.sides, s.Told

/-- Unless it loads a file, a line adds no other sides. -/
theorem Told.afterLine {files : Files} {g : Game} {line : String} (told : g.Told)
    (isLine : Text.IsLine line) (unloaded : ∀ c ∈ Command.parse? line, c.loadsSides = false) :
    (g.afterLine files line).Told := by
  cases parsed : Command.parse? line with
  | none =>
      rw [afterLine_ignored parsed]
      exact told
  | some c =>
      rw [afterLine_command parsed]
      intro s mem
      cases sideSource_step mem with
      | kept pending => exact told s pending
      | @line text read =>
          have inside := (Command.parts_of_parse? parsed).2 text rfl
          exact Side.told_of_parse (isLine.of_chars inside) read
      | file loaded among => cases unloaded _ parsed
      | released pending same => exact same ▸ (told _ pending).release

theorem Told.afterLines {files : Files} {g : Game} {lines : List String} (told : g.Told)
    (typed : ∀ line ∈ lines,
      Text.IsLine line ∧ ∀ c ∈ Command.parse? line, c.loadsSides = false) :
    (g.afterLines files lines).Told :=
  List.foldlRecOn lines (Game.afterLine files) (motive := Told) told fun _ told line mem =>
    told.afterLine (typed line mem).1 (typed line mem).2

/-! ## Listing and reading -/

/-- A listed side is read again, unless there is nothing in it. -/
theorem afterLine_listed (files : Files) (g : Game) {s : Side} (told : s.Told) :
    g.afterLine files (Response.side s).line =
      { g with sides := g.sides ++ [s].filter (·.encode ≠ "") } := by
  change g.afterLine files ("side " ++ s.encode) = _
  by_cases empty : s.encode = ""
  · have unknown : Command.parse? "side " = none := by decide
    rw [empty, String.append_empty, afterLine_ignored unknown,
      List.filter_cons_of_neg (by simpa using empty), List.filter_nil, List.append_nil]
  · have parsed := Command.parse?_addSide empty told.wellFormed.encode_trimmed
    have read := Side.parse_encode told.wellFormed
    rw [told.isBare] at read
    rw [Command.render_addSide] at parsed
    rw [afterLine_command parsed, List.filter_cons_of_pos (by simpa using empty), List.filter_nil]
    simp only [step, addSide, read]
    rfl

theorem afterLines_listed (files : Files) (g : Game) {sides : List Side}
    (told : ∀ s ∈ sides, s.Told) :
    g.afterLines files (sides.map fun s => (Response.side s).line) =
      { g with sides := g.sides ++ sides.filter (·.encode ≠ "") } := by
  induction sides generalizing g with
  | nil =>
      rw [List.filter_nil, List.append_nil]
      rfl
  | cons s sides ih =>
      rw [List.forall_mem_cons] at told
      have first := afterLine_listed files g told.1
      rw [List.map_cons, afterLines, List.foldl_cons, first, ← afterLines, ih _ told.2,
        List.append_assoc, ← List.filter_append]
      rfl

/-- The listing is one line for each side and an end. -/
theorem splitOn_listing (files : Files) {g : Game} (told : g.Told) :
    Text.splitOn '\n' (Response.write (g.step files .listSides).1.written) =
      (g.sides.map fun s => (Response.side s).line) ++ ["sidesok", ""] := by
  have lines : ∀ r ∈ (g.step files .listSides).1.written, Text.IsLine r.line := by
    change ∀ r ∈ g.sides.map Response.side ++ [.sidesDone], Text.IsLine r.line
    rw [List.forall_mem_append, List.forall_mem_map, List.forall_mem_singleton]
    refine ⟨fun s mem => Text.isLine_append.mpr ⟨by decide, ?_⟩, by decide⟩
    exact s.isLine_encode.mpr (told s mem).lines
  rw [Response.splitOn_write lines]
  change (g.sides.map Response.side ++ [Response.sidesDone]).map Response.line ++ [""] = _
  rw [List.map_append, List.map_map, List.append_assoc]
  rfl

/-! ## New games -/

/-- Sides with nothing in them make no difference to a new game. -/
theorem newGame_listed {g g' : Game} (options : g'.options = g.options)
    (sides : g'.sides = g.sides.filter (·.encode ≠ "")) :
    (15 < Roster.namedCount g.sides ∧ ∃ e, g.newGame = (.error e, { g with objects := [] }) ∧
      g'.newGame = (.error e, { g' with objects := [] })) ∨
    (Roster.namedCount g.sides ≤ 15 ∧ ∃ roster teams left left',
      g.newGame = (.ok (), { g with objects := [], roster, teams, sides := left }) ∧
      g'.newGame = (.ok (), { g' with objects := [], roster, teams, sides := left' })) := by
  have mute : ∀ side : Side, decide (side.encode ≠ "") = false → side.Mute := by
    intro side dropped
    have blank := Side.encode_eq_empty_iff.mp (by simpa using dropped)
    exact blank ▸ Side.mute_blank
  have filtered := Roster.newGame_filter mute g.options g.sides g.roster g'.roster g.teams g'.teams
  rw [← sides] at filtered
  cases started : Roster.newGame g.options g.sides g.roster g.teams with
  | error e =>
      rw [started] at filtered
      refine .inl ⟨(Roster.newGame_eq_error.mp started).1, .roster e, ?_, ?_⟩
      · rw [newGame, started]
      · rw [newGame, options, filtered]
        rfl
  | ok set =>
      rw [started] at filtered
      refine .inr ⟨Roster.namedCount_le_of_newGame started, set.roster, set.teams, set.sides,
        Roster.released g'.sides, ?_, ?_⟩
      · rw [newGame, started]
      · rw [newGame, options, filtered]
        rfl

theorem step_newGame (files : Files) {g next : Game} {result : Except GameError Unit}
    (set : g.newGame = (result, next)) :
    g.step files .newGame =
      (answer (fun _ => [.gameStarted next.roster.count next.roster.localPlayer.name]) result,
        next) := by
  unfold step
  rw [set]

/-- A line for a side with nothing in it, one that is refused, and two for players. -/
def duelLines : List String :=
  ["side ;", "side =x", "side playerName= A ;teams=a", "side playerName=B"]

/-- No file is there. -/
def noFiles : Files := { find := fun _ => .error .missing }

/-- A session before a duel. -/
def duel : Game :=
  afterLines noFiles {} duelLines

/-- The lines that list the sides of the duel. -/
def duelListing : List String :=
  duel.sides.map fun s => (Response.side s).line

/-- Lines for one player more than a roster has room for. -/
def crowdLines : List String :=
  List.replicate 16 "side playerName=Red"

end Game

end BattleRoster
