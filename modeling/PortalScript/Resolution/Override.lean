import PortalScript.Table
import PortalScript.Template.Substitution

/-! # Overrides

An override gives a text in place of a token that failed. Keys in quotes stand for the results of
the portals of a template; all others are replaced where they occur in the script as whole tokens,
the longest first. -/

namespace PortalScript.Override

def isTemplateToken (key : String) : Bool :=
  2 ≤ key.length && key.toList.head? = some '\'' && key.toList.getLast? = some '\''

def standIns (overrides : Table String) : Table String :=
  ⟨overrides.entries.filter (isTemplateToken ·.1)⟩

/-- Whether one key comes before another: the longer in UTF-8 first, then in the order of their
characters. -/
def precedes (a b : String × String) : Bool :=
  b.1.utf8ByteSize < a.1.utf8ByteSize || (a.1.utf8ByteSize = b.1.utf8ByteSize && !(b.1 < a.1))

/-- The overrides of links, in the order in which they are applied. -/
def ordered (overrides : Table String) : List (String × String) :=
  (overrides.entries.filter (!isTemplateToken ·.1)).mergeSort precedes

/-- Replaces tokens one after the other; also answers how often. -/
def applyAll : List (String × String) → Template → Template × Nat
  | [], t => (t, 0)
  | (token, text) :: rest, t =>
    let (t, n) := t.substitute token text
    let (t, k) := applyAll rest t
    (t, n + k)

/-- Replaces the tokens of all overrides of links; also answers how often. -/
def apply (overrides : Table String) (t : Template) : Template × Nat := applyAll (ordered overrides) t

end PortalScript.Override
