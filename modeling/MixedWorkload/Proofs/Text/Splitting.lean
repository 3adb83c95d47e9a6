import Mathlib

/-!
# Splitting a text at a character

`String.splitOn` looks for a separator with two indices, one into the text and one into the
separator. When the separator is a single character, the second index is back at its start with
every character of the text, and what comes out is what splitting a list comes to
(`MixedWorkload.Text.splitOn_singleton`). So all that is known of lists can be used.
-/

namespace MixedWorkload.Text

open String (utf8Len)

/-! ### A separator of one character -/

theorem get_singleton (c : Char) : String.Pos.Raw.get (String.singleton c) 0 = c := by
  rw [String.singleton_eq_ofList]
  exact String.get_of_valid [] [c]

theorem next_singleton (c : Char) :
    String.Pos.Raw.next (String.singleton c) 0 = ⟨c.utf8Size⟩ := by
  have hnext := String.next_of_valid [] c []
  rw [String.utf8Len_nil, Nat.zero_add] at hnext
  rw [String.singleton_eq_ofList]
  exact hnext

theorem atEnd_singleton (c : Char) :
    String.Pos.Raw.atEnd (String.singleton c) ⟨c.utf8Size⟩ = true := by
  have hend := (String.atEnd_of_valid [c] []).mpr rfl
  rw [String.utf8Len_cons, String.utf8Len_nil, Nat.zero_add] at hend
  rw [String.singleton_eq_ofList]
  exact hend

/-! ### The search -/

/-- **The search for a character** has read some pieces and the beginning of one more. -/
theorem splitOnAux_singleton (c : Char) (before piece rest : List Char) (pieces : List String) :
    (String.ofList (before ++ piece ++ rest)).splitOnAux (String.singleton c) ⟨utf8Len before⟩
        ⟨utf8Len before + utf8Len piece⟩ 0 pieces =
      pieces.reverse ++
        (List.splitOnPPrepend (· == c) rest piece.reverse).map String.ofList := by
  induction rest generalizing before piece pieces with
  | nil =>
    have hend := (String.atEnd_of_valid (before ++ piece) []).mpr rfl
    have hpiece := String.extract_of_valid before piece []
    rw [String.utf8Len_append] at hend
    rw [String.splitOnAux, if_pos hend, hpiece]
    simp
  | cons d rest ih =>
    have hend := (String.atEnd_of_valid (before ++ piece) (d :: rest)).not.mpr
      (List.cons_ne_nil d rest)
    have hget := String.get_of_valid (before ++ piece) (d :: rest)
    have hnext := String.next_of_valid (before ++ piece) d rest
    have hpiece := String.extract_of_valid before piece (d :: rest)
    rw [String.utf8Len_append] at hend hget hnext
    rw [String.splitOnAux, if_neg hend, hget, get_singleton, List.headD_cons]
    dsimp only
    rw [hnext, next_singleton, atEnd_singleton, if_pos rfl, List.splitOnPPrepend_cons_eq_if]
    split
    · next heq =>
      -- the piece ends here, and the next one begins behind the separator
      have hback : (⟨utf8Len before + utf8Len piece + d.utf8Size⟩ : String.Pos.Raw).unoffsetBy
          ⟨c.utf8Size⟩ = ⟨utf8Len before + utf8Len piece⟩ := by
        rw [eq_of_beq heq]
        exact congrArg String.Pos.Raw.mk (Nat.add_sub_cancel _ _)
      have hrest := ih (before ++ piece ++ [d]) [] (String.ofList piece :: pieces)
      rw [hback, hpiece]
      simpa [Nat.add_assoc] using hrest
    · next hne =>
      have hrest := ih before (piece ++ [d]) pieces
      have hhere : (⟨utf8Len before + utf8Len piece⟩ : String.Pos.Raw).unoffsetBy 0 =
          ⟨utf8Len before + utf8Len piece⟩ := rfl
      rw [hhere, hnext]
      simpa [Nat.add_assoc] using hrest

/-- **Splitting a text at a character** is splitting the list of its characters. -/
theorem splitOn_singleton (s : String) (c : Char) :
    s.splitOn (String.singleton c) = (s.toList.splitOn c).map String.ofList := by
  have hne : ¬(String.singleton c == "") = true := by
    rw [beq_iff_eq]
    exact String.singleton_ne_empty
  have haux := splitOnAux_singleton c [] [] s.toList []
  rw [List.append_nil, List.nil_append, String.ofList_toList] at haux
  rw [String.splitOn, if_neg hne, List.splitOn_eq_splitOnP, List.splitOnP_eq_splitOnPPrepend]
  exact haux

theorem splitOn_singleton_of_notMem {s : String} {c : Char} (h : c ∉ s.toList) :
    s.splitOn (String.singleton c) = [s] := by
  rw [splitOn_singleton, List.splitOn_eq_singleton h, List.map_singleton, String.ofList_toList]

end MixedWorkload.Text
