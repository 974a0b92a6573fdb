import QuinMo.Lib.Base64
import QuinMo.Links.Outbound
import QuinMo.Links.ToLink

/-!
# Base64 in links

The URL-safe alphabet is turned into the plain one by replacing two characters.
-/

namespace QuinMo.Links
open Text

theorem replace_char (s : String) (d e : Char) :
    (replace s (String.ofList [d]) (String.ofList [e])).toList =
      s.toList.map fun c => if c = d then e else c := by
  unfold replace
  simp only [String.toList_ofList, replaceFrom_char]
  rw [List.flatMap_congr (g := fun c => [if c = d then e else c]), ← List.map_eq_flatMap]
  intro c _
  split <;> rfl

/-- The plain alphabet in place of the URL-safe one. -/
def plainSymbol (c : Char) : Char := if c = '-' then '+' else if c = '_' then '/' else c

theorem replace_symbols (s : String) :
    (replace (replace s "-" "+") "_" "/").toList = s.toList.map plainSymbol := by
  have minus := replace_char s '-' '+'
  have underscore := replace_char (replace s "-" "+") '_' '/'
  change (replace s "-" "+").toList = _ at minus
  change (replace (replace s "-" "+") "_" "/").toList = _ at underscore
  rw [underscore, minus, List.map_map]
  refine List.map_congr_left fun c _ => ?_
  unfold plainSymbol Function.comp
  by_cases first : c = '-'
  · subst first
    decide
  · simp [first]

theorem plainSymbol_symbol : ∀ n < 64, plainSymbol (Base64.symbol true n) =
    Base64.symbol false n := by
  decide

theorem map_encode (bytes : List UInt8) :
    (Base64.encode true false bytes).map plainSymbol = Base64.encode false false bytes := by
  have small (a : UInt8) := a.toNat_lt
  fun_induction Base64.encode true false bytes with
  | case1 => rfl
  | case2 a =>
    have first := plainSymbol_symbol (a.toNat / 4) (by have := small a; omega)
    have second := plainSymbol_symbol (a.toNat % 4 * 16) (by omega)
    simp [Base64.encode, first, second]
  | case3 a b =>
    have first := plainSymbol_symbol (a.toNat / 4) (by have := small a; omega)
    have second := plainSymbol_symbol (a.toNat % 4 * 16 + b.toNat / 16) (by have := small b; omega)
    have third := plainSymbol_symbol (b.toNat % 16 * 4) (by omega)
    simp [Base64.encode, first, second, third]
  | case4 a b c rest ih =>
    have first := plainSymbol_symbol (a.toNat / 4) (by have := small a; omega)
    have second := plainSymbol_symbol (a.toNat % 4 * 16 + b.toNat / 16) (by have := small b; omega)
    have third := plainSymbol_symbol (b.toNat % 16 * 4 + c.toNat / 64) (by have := small c; omega)
    have fourth := plainSymbol_symbol (c.toNat % 64) (by omega)
    simp [Base64.encode, first, second, third, fourth, ih]

end QuinMo.Links
