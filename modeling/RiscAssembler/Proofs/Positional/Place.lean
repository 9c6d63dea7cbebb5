import RiscAssembler.Positional.Place
import RiscAssembler.Proofs.Token.Steps

/-!
Contract: places in a list, and what is left of the list from them on.

Owns:
- the items in front of a place and those that are left;
- the slice between two places, as what the first leaves more than the second;
- a place in a program text, as a cursor that holds the text that is left;
- the place behind one character and behind a run of characters.

Main statement: `Place.Stands.advanceWhile`.
-/

namespace RiscAssembler.Positional

/-- A place stands behind some items, and others are left. -/
def CursorAt {Item : Type} (items : List Item) (place : Nat) (rest : List Item) : Prop :=
  ∃ before, before ++ rest = items ∧ before.length = place

namespace CursorAt

section

variable {Item : Type} {items rest : List Item} {place : Nat} (cursor : CursorAt items place rest)
include cursor

theorem getElem?_add (offset : Nat) : items[place + offset]? = rest[offset]? := by
  obtain ⟨before, rfl, rfl⟩ := cursor
  rw [List.getElem?_append_right (Nat.le_add_right _ _), Nat.add_sub_cancel_left]

theorem getElem? : items[place]? = rest[0]? :=
  cursor.getElem?_add 0

theorem length_eq : items.length = place + rest.length := by
  obtain ⟨before, rfl, rfl⟩ := cursor
  exact List.length_append

theorem advance {passed ahead : List Item} (split : passed ++ ahead = rest) :
    CursorAt items (place + passed.length) ahead := by
  obtain ⟨before, rfl, rfl⟩ := cursor
  exact ⟨before ++ passed, by rw [List.append_assoc, split], List.length_append⟩

/-- What one place leaves more than another place is the slice between them. -/
theorem slice?_eq {piece after : List Item} {stop : Nat} (stops : CursorAt items stop after)
    (split : piece ++ after = rest) : slice? items place stop = some piece := by
  have first := cursor.length_eq
  have second := stops.length_eq
  have whole := congrArg List.length split
  rw [List.length_append] at whole
  obtain rfl : stop = place + piece.length := by
    omega
  obtain ⟨before, rfl, rfl⟩ := cursor
  rw [slice?, if_pos (by omega), List.extract_eq_take_drop, List.drop_left, Nat.add_sub_cancel_left,
    ← split, List.take_left]

end

end CursorAt

/-! ### Places in a program text -/

namespace Place

/-- A place and a cursor are the same place of a text, seen from its two ends. -/
structure Stands (text : List Char) (place : Place) (cursor : Cursor) : Prop where
  cursorAt : CursorAt text place.position cursor.rest
  line_eq : place.line = cursor.line

namespace Stands

section

variable {text rest : List Char} {place : Place} {line : Nat}

theorem getElem?_eq (stands : Stands text place ⟨rest, line⟩) :
    text[place.position]? = rest.head? := by
  rw [stands.cursorAt.getElem?, List.head?_eq_getElem?]

theorem behind {character : Char} (stands : Stands text place ⟨character :: rest, line⟩) :
    Stands text (place.behind character)
      ⟨rest, if character = '\n' then line + 1 else line⟩ where
  cursorAt := stands.cursorAt.advance (show [character] ++ rest = character :: rest from rfl)
  line_eq := by
    have sameLine : place.line = line := stands.line_eq
    rw [← sameLine]
    rfl

theorem behind_inline {character : Char} (stands : Stands text place ⟨character :: rest, line⟩)
    (inline : character ≠ '\n') : Stands text (place.behind character) ⟨rest, line⟩ := by
  have later := stands.behind
  rwa [if_neg inline] at later

theorem advance_eq {character : Char} (stands : Stands text place ⟨character :: rest, line⟩) :
    place.advance text = place.behind character := by
  rw [advance, stands.getElem?_eq]
  rfl

/-- A run of characters moves a place behind it, and down by its line breaks. -/
theorem advanceWhile {property : Char → Bool} (stands : Stands text place ⟨rest, line⟩) :
    Stands text (place.advanceWhile text property)
      ⟨rest.dropWhile property, line + (rest.takeWhile property).count '\n'⟩ := by
  induction rest generalizing place line with
  | nil =>
      rw [advanceWhile_of_none stands.getElem?_eq]
      exact stands
  | cons character rest inductionHypothesis =>
      rw [advanceWhile_of_some stands.getElem?_eq]
      by_cases member : property character
      · have later := inductionHypothesis stands.behind
        have lines : (if character = '\n' then line + 1 else line) +
            (rest.takeWhile property).count '\n' =
              line + (character :: rest.takeWhile property).count '\n' := by
          rw [List.count_cons]
          simp only [beq_iff_eq]
          split
          · omega
          · rfl
        rw [if_pos member, List.dropWhile_cons_of_pos member, List.takeWhile_cons_of_pos member,
          ← lines]
        exact later
      · rw [if_neg member, List.dropWhile_cons_of_neg member, List.takeWhile_cons_of_neg member]
        exact stands

/-- A run without line breaks stays on its line. -/
theorem advanceWhile_inline {property : Char → Bool} (inline : property '\n' = false)
    (stands : Stands text place ⟨rest, line⟩) :
    Stands text (place.advanceWhile text property) ⟨rest.dropWhile property, line⟩ := by
  have later : Stands text (place.advanceWhile text property) _ := stands.advanceWhile
  have noBreak : (rest.takeWhile property).count '\n' = 0 := by
    apply List.count_eq_zero_of_not_mem
    intro member
    have isMember : property '\n' := of_mem_takeWhile member
    rw [inline] at isMember
    cases isMember
  rwa [noBreak] at later

end

end Stands

end Place

end RiscAssembler.Positional
