import Descent.State

/-!
# Notes

While a grammar runs it may leave notes: marks that the grammar itself makes, and records of
what the library did. A note keeps what it is about; its level and wording are derived.
-/

namespace Descent

/-- Something worth noting, in the order it happened. -/
inductive Note where
  /-- A mark made by the grammar. -/
  | mark (v : Value)
  /-- A parse began on so many items. -/
  | began (items : Nat) (position : Position)
  /-- A parse ended in a failure. -/
  | refused (failure : Failure)
  /-- A traced parser ran. -/
  | traced (level : Int) (tag : String) (before after : State)
  /-- Input that came after a failure was dropped. -/
  | dropped (items : Nat) (position : Position)
  /-- A parser ran out of input and waits for more. -/
  | waiting (position : Position)
  /-- A chunk of a stream was taken. -/
  | chunk (characters : Nat)

namespace Note

/-- The mark of a note that is one. -/
def mark? : Note → Option Value
  | mark v => some v
  | _ => none

/-- The level of ordinary records. -/
def debugLevel : Int := 10

/-- The level of a record; marks have none. -/
def level? : Note → Option Int
  | mark _ => none
  | traced level _ _ _ => some level
  | _ => some debugLevel

/-- The name of a level. -/
def levelName (level : Int) : String :=
  if level = 50 then "CRITICAL"
  else if level = 40 then "ERROR"
  else if level = 30 then "WARNING"
  else if level = 20 then "INFO"
  else if level = 10 then "DEBUG"
  else if level = 0 then "NOTSET"
  else "Level " ++ toString level

/-- The wording of a note. -/
def text : Note → String
  | mark v => v.written
  | began items position =>
    "parse: " ++ toString items ++ " items from " ++ position.text
  | refused failure => "parse failed: " ++ failure.text
  | traced _ tag before after => tag ++ " :: " ++ before.written ++ " => " ++ after.written
  | dropped items position =>
    "dropping " ++ toString items ++ " items after failure at " ++ position.text
  | waiting position => "waiting for more input at " ++ position.text
  | chunk characters => "stream chunk of " ++ toString characters ++ " characters"

/-- The name of the level and the wording of a record. What lies below the level of ordinary
records is not kept. -/
def record? (note : Note) : Option (String × String) :=
  (note.level?.filter (debugLevel ≤ ·)).map fun level => (levelName level, note.text)

end Note
end Descent
