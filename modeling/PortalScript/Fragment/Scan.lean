import PortalScript.Fragment

/-! # Reading a fragment from the left

What is still to be read is itself a fragment: a gap where reading stopped stands both at the end
of what was taken and at the start of what is left. `takeWhile` and `dropWhile` divide a fragment,
and no step makes what is left longer (`length_dropWhile_le`, `length_lt_of_eat?`). -/

namespace PortalScript.Fragment

def next? (f : Fragment) : Option (Glyph × Fragment) :=
  match f.glyphs with
  | [] => none
  | g :: gs => some (g, ⟨gs, f.gapAtEnd⟩)

/-- Whether the first glyph is `c` as written. -/
def startsAt (f : Fragment) (c : Char) : Bool := f.glyphs.head?.any (·.isWritten c)

/-- What follows the written character `c` at the start. -/
def eat? (f : Fragment) (c : Char) : Option Fragment :=
  match f.glyphs with
  | [] => none
  | g :: gs => if g.isWritten c then some ⟨gs, f.gapAtEnd⟩ else none

/-- What is left after the leading glyphs for which `p` holds. -/
def dropWhile (p : Glyph → Bool) (f : Fragment) : Fragment := ⟨f.glyphs.dropWhile p, f.gapAtEnd⟩

def takeWhile (p : Glyph → Bool) (f : Fragment) : Fragment :=
  ⟨f.glyphs.takeWhile p, (f.dropWhile p).gapAtStart⟩

/-- What is left after leading blanks, written or resolved. -/
def skipBlank (f : Fragment) : Fragment := f.dropWhile (·.isBlank)

/-- What stands before the next written `c`. -/
def takeUntil (c : Char) (f : Fragment) : Fragment := f.takeWhile (!·.isWritten c)

/-- What is left from the next written `c` on. -/
def dropUntil (c : Char) (f : Fragment) : Fragment := f.dropWhile (!·.isWritten c)

variable {f f' : Fragment} {c : Char}

theorem length_dropWhile_le (p : Glyph → Bool) (f : Fragment) : (f.dropWhile p).length ≤ f.length :=
  (List.dropWhile_sublist p).length_le

theorem length_skipBlank_le (f : Fragment) : f.skipBlank.length ≤ f.length :=
  length_dropWhile_le _ f

theorem length_eq_of_eat? (h : f.eat? c = some f') : f.length = f'.length + 1 := by
  unfold eat? at h
  split at h
  · cases h
  · split at h
    · cases h; simp_all [length]
    · cases h

theorem length_lt_of_eat? (h : f.eat? c = some f') : f'.length < f.length := by
  rw [length_eq_of_eat? h]; exact Nat.lt_succ_self _

end PortalScript.Fragment
