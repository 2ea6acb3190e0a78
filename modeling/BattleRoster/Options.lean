import BattleRoster.Files
import BattleRoster.Json.Decoder

/-!
# Session options

Three switches influence how a roster is set up.  They are read from a JSON
file, with a default for each that is missing, and can be changed by name.
-/

namespace BattleRoster

structure Options where
  network : Bool := false
  campaign : Bool := false
  skirmish : Bool := true
deriving DecidableEq, Repr, Inhabited

inductive OptionsError where
  | unreadable (path : String) (why : FileFailure)
  | malformed
  | unknown (name : String)
  | invalid (name value : String)
deriving DecidableEq, Repr

/-- The words of the library follow where it is the one that refuses. -/
def OptionsError.message (e : OptionsError) (words : String := "") : String :=
  match e with
  | .unreadable path why => unreadableMessage path why
  | .malformed => s!"failed to parse config JSON: {words}"
  | .unknown name => s!"unknown option '{name}'"
  | .invalid name value => s!"invalid value '{value}' for option '{name}'"

namespace Options

def flag? : String → Option Bool
  | "true" | "1" | "yes" | "on" => some true
  | "false" | "0" | "no" | "off" => some false
  | _ => none

/-- The position that a value asks for; no value means on. -/
def position (name : String) : Option String → Except OptionsError Bool
  | none => .ok true
  | some value =>
      match flag? value with
      | some b => .ok b
      | none => .error (.invalid name value)

def set (o : Options) (name : String) (value : Option String) :
    Except OptionsError Options :=
  match name with
  | "NetworkActive" => (position name value).map fun b => { o with network := b }
  | "CampaignForce" => (position name value).map fun b => { o with campaign := b }
  | "SkirmishSession" => (position name value).map fun b => { o with skirmish := b }
  | _ => .error (.unknown name)

open Json in
def decode : Decoder Options := fun v => do
  let fields ← Field.ofRecord?
    ["network_active", "campaign_force", "skirmish_session"] v
  match fields with
  | [network, campaign, skirmish] =>
      return {
        network := ← network.withDefault false Decoder.bool
        campaign := ← campaign.withDefault false Decoder.bool
        skirmish := ← skirmish.withDefault true Decoder.bool }
  | _ => none

def read (text : String) : Except OptionsError Options :=
  match (Json.Value.read? text).bind decode with
  | some options => .ok options
  | none => .error .malformed

def load (files : Files) (path : String) : Except OptionsError Options :=
  match files.readText path with
  | .error why => .error (.unreadable path why)
  | .ok text => read text

end Options

end BattleRoster
