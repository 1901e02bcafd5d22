/-
  Where blocks go. A sink takes blocks one by one and may refuse one. The recorder keeps the
  blocks themselves, up to a capacity if it has one; a HOB list keeps their encoding, and logs a
  refusal.
-/
import BootHandoff.Hob.List

namespace BootHandoff

/-- A destination for blocks, with states in `κ`. -/
structure Sink (κ : Type) where
  append : κ → Hob → Except HobError κ
  /-- What is logged about a refusal. -/
  complaints : HobError → List Record

namespace Sink

/-- The sink that keeps the blocks in order, and no more than its capacity. -/
def recorder (capacity : Option Nat) : Sink (List Hob) where
  append held hob :=
    match capacity with
    | none => .ok (held ++ [hob])
    | some c =>
      if held.length < c then .ok (held ++ [hob])
      else .error (.outOfResources (held.length + 1) c)
  complaints _ := []

/-- The sink that builds a HOB list. -/
def hobList : Sink HobList where
  append := HobList.append
  complaints
    | .outOfResources needed available =>
      [.of .hobList .error s!"HOB list full: {needed} bytes requested, {available} available"]

end Sink

end BootHandoff
