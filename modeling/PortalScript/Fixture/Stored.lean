import PortalScript.Fixture
import PortalScript.Json.Reader

/-! # Stored fixtures

Fixtures, histories and selectors are read from JSON text. Every field of a fixture may be absent. -/

namespace PortalScript

def History.parse? (text : String) : Option History := (Json.parse? text).bind (History.ofJson? 0)

namespace Fixture

/-- The names of the stored fields, in the order in which an array lists them. -/
def storedFields : List String :=
  ["history", "conversations", "templates", "variables", "fetch_delays_ms", "scrape_error"]

/-- Reads the text with which scrapes fail, or `null`. -/
def scrapeErrorOf? : Json → Option (Option String)
  | .null => some none
  | value => value.text?.map some

def ofJson? (value : Json) : Option Fixture := do
  let [history, conversations, templates, vars, delays, scrapeError] ←
    value.fields? storedFields | none
  return {
    history := ← Json.fieldOr? [] (History.ofJson? 1) history
    conversations := ← Json.fieldOr? ∅ (Json.tableOf? (History.ofJson? 2)) conversations
    templates := ← Json.fieldOr? ∅ (Json.tableOf? Json.text?) templates
    vars := ← Json.fieldOr? ∅ (Json.tableOf? Json.text?) vars
    fetchDelays := ← Json.fieldOr? ∅ (Json.tableOf? Json.word64?) delays
    scrapeError := ← Json.fieldOr? none scrapeErrorOf? scrapeError }

def parse? (text : String) : Option Fixture := (Json.parse? text).bind ofJson?

end Fixture

/-- How a page tells turns and their authors apart. -/
structure Selectors where
  turnContainer : String := ""
  user : String := ""
  chat : String := ""
  thoughts : String := ""
deriving Repr, DecidableEq

namespace Selectors

/-- Reads the selectors of AI turns: of their chat text and their thoughts. -/
def aiOf? (value : Json) : Option (String × String) := do
  let [chat, thoughts] ← value.fields? ["chat", "thoughts"] | none
  return (← Json.fieldOr? "" Json.text? chat, ← Json.fieldOr? "" Json.text? thoughts)

/-- Reads the selectors of authors: of user turns, then those of AI turns. -/
def authorsOf? (value : Json) : Option (String × String × String) := do
  let [user, ai] ← value.fields? ["user", "ai"] | none
  return (← Json.fieldOr? "" Json.text? user, ← Json.fieldOr? ("", "") aiOf? ai)

def ofJson? (value : Json) : Option Selectors := do
  let [container, authors] ← value.fields? ["messageTurnContainer", "authorIdentification"] | none
  let container ← Json.fieldOr? "" Json.text? container
  let (user, chat, thoughts) ← Json.fieldOr? ("", "", "") authorsOf? authors
  return ⟨container, user, chat, thoughts⟩

def parse? (text : String) : Option Selectors := (Json.parse? text).bind ofJson?

end Selectors

end PortalScript
