/-
  FilmCatalog.Catalog.Log
  ───────────────────────
  **WHAT IS REPORTED ON THE WAY.**
-/

namespace FilmCatalog

/-- How much a message matters. -/
inductive Severity where
  | info | warn
  deriving DecidableEq, Repr

/-- The name of a severity in reports. -/
def Severity.name : Severity → String
  | .info => "INFO"
  | .warn => "WARN"

/-- A message. -/
structure LogMessage where
  severity : Severity
  text : String
  deriving DecidableEq, Repr

/-- Messages in the order in which they arose. -/
abbrev Log := List LogMessage

namespace LogMessage

/-- A message for information. -/
def info (text : String) : LogMessage := ⟨.info, text⟩

/-- A warning. -/
def warn (text : String) : LogMessage := ⟨.warn, text⟩

/-- A character as it is shown: those that could steer a terminal are shown
by their code. -/
def visible (c : Char) : List Char :=
  let code := c.toNat
  if code = 0x7 ∨ code = 0x8 ∨ code = 0xc ∨ code = 0x1b ∨ code = 0x7f then
    ['\\', 'x', Nat.digitChar (code / 16), Nat.digitChar (code % 16)]
  else if 0x80 ≤ code ∧ code ≤ 0x9f then
    ['\\', 'u', '\x7b', Nat.digitChar (code / 16), Nat.digitChar (code % 16), '\x7d']
  else [c]

/-- The text of a message as it is shown. -/
def shown (message : LogMessage) : String :=
  message.severity.name ++ " " ++ String.ofList (message.text.toList.flatMap visible)

end LogMessage

end FilmCatalog
