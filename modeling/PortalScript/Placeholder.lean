import PortalScript.Table
import PortalScript.Text.Split

/-! # Placeholders

The body of a template names its parameters as `{{key}}`. `fill` replaces the placeholders whose key
has a value, leaves all other text as it is, and never looks into a value it put in. -/

namespace PortalScript.Placeholder

/-- The text with each placeholder of a listed key replaced by the first value listed for it. -/
def fillChars (values : List (String × String)) (body : List Char) : List Char :=
  match _ho : Text.cutAt? ['{', '{'] body with
  | none => body
  | some (before, inner) =>
    match _hc : Text.cutAt? ['}', '}'] inner with
    | none => body
    | some (key, rest) =>
      match Table.lookup (.ofList key) values with
      | some value => before ++ value.toList ++ fillChars values rest
      | none => before ++ '{' :: '{' :: fillChars values inner
termination_by body.length
decreasing_by
  · rw [Text.eq_append_of_cutAt? _ho, Text.eq_append_of_cutAt? _hc]
    simp; omega
  · rw [Text.eq_append_of_cutAt? _ho]
    simp; omega

/-- The text with each placeholder of a listed key replaced by the first value listed for it. -/
def fill (values : List (String × String)) (body : String) : String :=
  .ofList (fillChars values body.toList)

end PortalScript.Placeholder
