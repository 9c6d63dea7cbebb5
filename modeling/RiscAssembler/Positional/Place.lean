import RiscAssembler.Text

/-!
Contract: places in a list, counted from its front.

Owns:
- the distance of a place from the end, which a place further on is nearer to;
- the items between two places;
- a place in a program text with its line, one character on or behind a run of characters.

Nothing here looks at what is left of a text. A place may stand behind the end, where there is no
item, and a slice of two places in the wrong order has no result.
-/

namespace RiscAssembler.Positional

/-- A place below the end is nearer to it than any place in front. -/
theorem sub_lt_of_getElem? {Item : Type} {items : List Item} {place later : Nat} {item : Item}
    (here : items[place]? = some item) (further : place < later) :
    items.length - later < items.length - place := by
  have inside : place < items.length := (List.getElem?_eq_some_iff.mp here).1
  omega

/-- The items between two places, if these are in order and the second is not behind the end. -/
def slice? {Item : Type} (items : List Item) (start stop : Nat) : Option (List Item) :=
  if start ≤ stop ∧ stop ≤ items.length then some (items.extract start stop) else none

/-- A place in a program text: the number of characters in front of it, and its line. -/
structure Place where
  position : Nat
  line : Nat
deriving DecidableEq, Repr

namespace Place

/-- The place behind a character. -/
def behind (place : Place) (character : Char) : Place :=
  ⟨place.position + 1, if character = '\n' then place.line + 1 else place.line⟩

variable (text : List Char)

/-- One character on, if there is one. -/
def advance (place : Place) : Place :=
  match text[place.position]? with
  | none => place
  | some character => place.behind character

/-- Behind the longest run of characters of a class. -/
def advanceWhile (property : Char → Bool) (place : Place) : Place :=
  match _here : text[place.position]? with
  | none => place
  | some character =>
      if property character then advanceWhile property (place.behind character) else place
termination_by text.length - place.position
decreasing_by exact sub_lt_of_getElem? _here (Nat.lt_succ_self _)

section Equations

variable {text} {property : Char → Bool} {place : Place}

theorem advanceWhile_of_none (atEnd : text[place.position]? = none) :
    place.advanceWhile text property = place := by
  rw [advanceWhile]
  split
  · rfl
  · rename_i character here
    rw [atEnd] at here
    cases here

theorem advanceWhile_of_some {character : Char} (here : text[place.position]? = some character) :
    place.advanceWhile text property =
      if property character then (place.behind character).advanceWhile text property
      else place := by
  rw [advanceWhile]
  split
  · rename_i atEnd
    rw [here] at atEnd
    cases atEnd
  · rename_i other again
    rw [here] at again
    rw [Option.some.inj again]

end Equations

theorem position_le_advanceWhile (property : Char → Bool) (place : Place) :
    place.position ≤ (place.advanceWhile text property).position := by
  match here : text[place.position]? with
  | none => exact Nat.le_of_eq (congrArg position (advanceWhile_of_none here).symm)
  | some character =>
      have later := position_le_advanceWhile property (place.behind character)
      have single : (place.behind character).position = place.position + 1 := rfl
      rw [advanceWhile_of_some here]
      split
      · omega
      · exact Nat.le_refl _
termination_by text.length - place.position
decreasing_by exact sub_lt_of_getElem? here (Nat.lt_succ_self _)

variable {text}

/-- A run that is not empty moves a place on. -/
theorem position_lt_advanceWhile {property : Char → Bool} {place : Place} {character : Char}
    (here : text[place.position]? = some character) (member : property character) :
    place.position < (place.advanceWhile text property).position := by
  have later := position_le_advanceWhile text property (place.behind character)
  rw [advanceWhile_of_some here, if_pos member]
  exact later

end Place

end RiscAssembler.Positional
