import BattleRoster.Player.Basic

/-!
# Rosters

A roster has sixteen slots, of which the first ones are active.  Slot zero is
the neutral player's.  One player is the local one, and a campaign keeps the
slots of its human players.
-/

namespace BattleRoster

structure Roster where
  players : Vector Player 16 := Vector.replicate 16 Player.vacant
  count : Nat := 1
  localSlot : Slot := Slot.neutral
  humans : List Slot := []
deriving DecidableEq

inductive RosterError where
  | capacityExceeded (requested : Nat)
  | noSlot (n : Nat)
  | noPlayerFor (mask : SlotSet)
  | unknownName (name : String)
deriving DecidableEq, Repr

def RosterError.message : RosterError → String
  | .capacityExceeded requested =>
      s!"{requested} players requested but the roster holds at most 16"
  | .noSlot n => s!"no player at index {n}"
  | .noPlayerFor mask => s!"no player matches mask {mask.text}"
  | .unknownName name => s!"unknown player '{name}'"

namespace Roster

/-- The player in a slot, active or not. -/
def player (r : Roster) (slot : Slot) : Player :=
  r.players[slot]

def modify (r : Roster) (slot : Slot) (change : Player → Player) : Roster :=
  { r with players := r.players.set slot (change (r.player slot)) }

theorem player_modify (r : Roster) (slot other : Slot) (change : Player → Player) :
    (r.modify slot change).player other =
      if slot = other then change (r.player slot) else r.player other := by
  simp only [modify, player, Fin.getElem_fin, Vector.getElem_set, Fin.ext_iff]

theorem ext_player {r r' : Roster} (players : ∀ slot, r.player slot = r'.player slot)
    (count : r.count = r'.count) (localSlot : r.localSlot = r'.localSlot)
    (humans : r.humans = r'.humans) : r = r' := by
  have same : r.players = r'.players := Vector.ext fun i lt => players ⟨i, lt⟩
  cases r; cases r'; simp_all

def active (r : Roster) : List Slot :=
  Slot.all.filter (·.val < r.count)

@[simp] theorem mem_active {r : Roster} {slot : Slot} :
    slot ∈ r.active ↔ slot.val < r.count := by
  simp [active, Slot.all]

/-- The first active slot whose player has a name. -/
def find? (r : Roster) (name : String) : Option Slot :=
  r.active.find? fun slot => (r.player slot).name == name

theorem active_of_find? {r : Roster} {name : String} {slot : Slot}
    (found : r.find? name = some slot) : slot.val < r.count :=
  mem_active.mp (List.mem_of_find?_eq_some found)

theorem name_of_find? {r : Roster} {name : String} {slot : Slot}
    (found : r.find? name = some slot) : (r.player slot).name = name :=
  beq_iff_eq.mp (List.find?_some found :)

def neutral (r : Roster) : Player :=
  r.player Slot.neutral

def localPlayer (r : Roster) : Player :=
  r.player r.localSlot

/--
Make a slot local; no slot stands for the neutral one.  Nothing happens when it
is local already.
-/
def setLocal (r : Roster) (slot : Option Slot) : Roster :=
  let slot := slot.getD Slot.neutral
  if slot = r.localSlot then r
  else
    let r := r.modify r.localSlot (·.markLocal false)
    { r with localSlot := slot }.modify slot (·.markLocal true)

/-- Vacate all slots; only the neutral player is active, and it is local. -/
def vacate (r : Roster) : Roster :=
  let r := { r with
    players := r.players.map Player.vacate
    count := 1
    localSlot := Slot.neutral
    humans := [] }
  r.modify Slot.neutral (·.markLocal true)

theorem player_vacate (r : Roster) (slot : Slot) :
    r.vacate.player slot =
      if slot = Slot.neutral then { isLocal := true } else Player.vacant := by
  have vacated (other : Slot) :
      Roster.player { r with
        players := r.players.map Player.vacate
        count := 1
        localSlot := Slot.neutral
        humans := [] } other = Player.vacant := by
    simp [player]
  unfold vacate
  rw [player_modify, vacated, vacated]
  simp only [eq_comm]
  rfl

/-- The roster before any game. -/
def initial : Roster :=
  vacate {}

/-! ## Stances -/

def stance (r : Roster) (slot other : Slot) : Stance :=
  (r.player slot).stance (r.player other).defaultTeam

/-- Set the stance of one slot towards another, if that one has a team. -/
def setStance (r : Roster) (slot other : Slot) (stance : Stance) : Roster :=
  match (r.player other).defaultTeam with
  | some team => r.modify slot (·.setStance team stance)
  | none => r

/-- The active players that a slot regards as a filter says. -/
def regarded (r : Roster) (source : Nat) (filter : StanceFilter) :
    Except RosterError SlotSet :=
  if filter.isEmpty then .ok ∅
  else
    match Slot.ofNat? source with
    | none => .error (.noSlot source)
    | some slot =>
        let start : SlotSet := if filter.self then SlotSet.insert ∅ slot else ∅
        .ok (r.active.foldl (fun set other =>
          if other ≠ slot ∧ filter.admits (r.stance slot other) then set.insert other
          else set) start)

def forgetTeam (r : Roster) (team : TeamId) : Roster :=
  { r with players := r.players.map (·.forget team) }

/-- Every player forgets the team, active or not. -/
theorem player_forgetTeam (r : Roster) (team : TeamId) (slot : Slot) :
    (r.forgetTeam team).player slot = (r.player slot).forget team := by
  simp [forgetTeam, player]

/-! ## Sets of players -/

/-- The slot whose set is exactly the given one. -/
def ofMask (mask : SlotSet) : Except RosterError Slot :=
  match Slot.all.find? fun slot => SlotSet.single slot == mask with
  | some slot => .ok slot
  | none => .error (.noPlayerFor mask)

/--
Take the lowest slot from a set, with what is left of it.  A set without a slot
gives none and is emptied, whatever other bits it has.
-/
def next (mask : SlotSet) : Option Slot × SlotSet :=
  match Slot.all.find? mask.contains with
  | some slot => (some slot, mask.erase slot)
  | none => (none, ∅)

/-- Take slots from a set until none is left; at most so many are taken. -/
def drain : Nat → SlotSet → List Slot
  | 0, _ => []
  | limit + 1, mask =>
      match next mask with
      | (some slot, rest) => slot :: drain limit rest
      | (none, _) => []

def slotsIn (mask : SlotSet) : List Slot :=
  drain slotCount mask

/-! ## Campaigns -/

/-- The names of the first human of a campaign, in order of preference. -/
def campaignNames : List String :=
  ["ThePlayer", "Player", "player0"]

/-- The highest number in the names of the further humans of a campaign. -/
def campaignExtraSlots : Nat := 7

/-- The slots of the names `player1`, `player2` and so on up to the first gap. -/
def numberedHumans (r : Roster) : List Nat → List Slot
  | [] => []
  | n :: rest =>
      match r.find? ("player" ++ Text.writeNat n) with
      | some slot => slot :: r.numberedHumans rest
      | none => []

/--
The human players of a campaign.  From a lobby they are found by their names;
otherwise the first human player is the only one.
-/
def campaignHumans (r : Roster) (lobby : Bool) : List Slot :=
  if lobby then
    (campaignNames.findSome? r.find?).toList ++
      r.numberedHumans (List.range' 1 campaignExtraSlots)
  else
    (Slot.all.find? fun slot => (r.player slot).controller == .human).toList

end Roster

end BattleRoster
