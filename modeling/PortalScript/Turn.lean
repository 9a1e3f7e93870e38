/-! # Turns of a conversation

A `History` lists the turns of a conversation, oldest first. A user turn carries its content, an AI
turn its visible chat text and the thoughts behind it. -/

namespace PortalScript

inductive Author
  | user
  | ai
deriving Repr, DecidableEq

namespace Author

/-- The spelling in scripts. -/
def label : Author → String
  | user => "USER"
  | ai => "AI"

/-- The spelling in stored histories. -/
def tag : Author → String
  | user => "user"
  | ai => "ai"

/-- Reads the spelling in scripts; case matters. -/
def ofLabel? (s : String) : Option Author :=
  if s = "USER" then some user else if s = "AI" then some ai else none

/-- Reads the spelling in stored histories; case matters. -/
def ofTag? (s : String) : Option Author :=
  if s = "user" then some user else if s = "ai" then some ai else none

/-- What is said of a spelling that names no author. -/
def unknownLabel (s : String) : String := s!"unknown author '{s}' (expected USER or AI)"

theorem ofLabel?_label (a : Author) : ofLabel? a.label = some a := by cases a <;> rfl

theorem ofLabel?_eq_some_iff {s : String} {a : Author} : ofLabel? s = some a ↔ s = a.label := by
  constructor
  · intro h
    simp only [ofLabel?] at h
    split at h
    · cases h; assumption
    · split at h
      · cases h; assumption
      · cases h
  · rintro rfl; exact ofLabel?_label a

end Author

inductive Turn
  | user (content : String)
  | ai (chat thoughts : String)
deriving Repr, DecidableEq

namespace Turn

def author : Turn → Author
  | user _ => .user
  | ai _ _ => .ai

/-- The visible text: the content of a user turn, the chat text of an AI turn. -/
def text : Turn → String
  | user content => content
  | ai chat _ => chat

/-- The turn with its visible text replaced; its author and thoughts stay. -/
def withText (text : String) : Turn → Turn
  | user _ => user text
  | ai _ thoughts => ai text thoughts

@[simp] theorem author_withText (s : String) (t : Turn) : (t.withText s).author = t.author := by
  cases t <;> rfl

@[simp] theorem text_withText (s : String) (t : Turn) : (t.withText s).text = s := by
  cases t <;> rfl

end Turn

/-- The turns of a conversation, oldest first. -/
abbrev History := List Turn

/-- How many turns of a history an author wrote. -/
def History.countBy (h : History) (a : Author) : Nat := h.countP (·.author = a)

end PortalScript
