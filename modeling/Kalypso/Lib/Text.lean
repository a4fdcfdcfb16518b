/-!
# Texts

A text is a list of characters.  Case conversion and blanks are those of ASCII.
-/

set_option autoImplicit false

namespace Kalypso.Lib

def Text : Type := List Char

instance : DecidableEq Text := inferInstanceAs (DecidableEq (List Char))

instance : Append Text := inferInstanceAs (Append (List Char))

namespace Text

def ofString (literal : String) : Text := literal.toList

def strip (text : Text) : Text :=
  ((text.dropWhile Char.isWhitespace).reverse.dropWhile Char.isWhitespace).reverse

def lower (text : Text) : Text := text.map Char.toLower

def contains : Text → Text → Bool
  | [], part => List.isEmpty part
  | c :: rest, part => List.isPrefixOf part (c :: rest) || contains rest part

def OccursIn (part text : Text) : Prop := ∃ before after, before ++ part ++ after = text

theorem OccursIn.rfl {text : Text} : text.OccursIn text := List.infix_rfl

theorem contains_iff {text part : Text} : text.contains part = true ↔ part.OccursIn text := by
  change _ ↔ List.IsInfix part text
  induction text with
  | nil =>
    exact List.isEmpty_iff.trans List.infix_nil.symm
  | cons c rest ih =>
    rw [contains, Bool.or_eq_true, ih]
    exact (or_congr_left List.isPrefixOf_iff_prefix).trans List.infix_cons_iff.symm

instance (part text : Text) : Decidable (part.OccursIn text) :=
  decidable_of_iff _ contains_iff

example : contains ['x', 'A', 'B'] ['A', 'B'] = true := rfl

end Text

end Kalypso.Lib
