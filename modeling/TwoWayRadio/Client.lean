import TwoWayRadio.Protocol

namespace TwoWayRadio

/-- A client is known by its address, as `*Client` is. -/
abbrev ClientRef := ℕ

structure Client where
  id : String
  callsign : String
  role : String := "Operator"
  currentChannelID : ChannelID := 1
  location : Option LocationPayload := none
deriving DecidableEq

/-- The heap: what each client pointer points to. -/
abbrev Clients := ClientRef → Client

def newClient (id callsign : String) : Client where
  id := id
  callsign := callsign

/-- `unicode.IsSpace`. -/
def isSpace (c : Char) : Bool :=
  ['\t', '\n', '\x0b', '\x0c', '\r', ' ', '\u0085', '\u00a0', '\u1680', '\u2028', '\u2029',
    '\u202f', '\u205f', '\u3000'].contains c || (0x2000 ≤ c.toNat && c.toNat ≤ 0x200a)

def trimSpace (s : String) : String :=
  String.ofList ((s.toList.dropWhile isSpace).reverse.dropWhile isSpace).reverse

/-- `unicode.ToLower` as far as it reaches ASCII: besides `A` to `Z` only the dotted
capital I and the Kelvin sign have an ASCII image, and no other image can occur in
the ASCII role names the result is compared with. -/
def lowerRune (c : Char) : Char :=
  if 'A' ≤ c ∧ c ≤ 'Z' then Char.ofNat (c.toNat + 32)
  else if c = '\u0130' then 'i'
  else if c = '\u212a' then 'k'
  else c

def toLower (s : String) : String :=
  String.ofList (s.toList.map lowerRune)

/-- Numeric rank for floor arbitration, 0 for a nil client. -/
def getPriority (client : Option Client) : ℤ :=
  match client with
  | none => 0
  | some c =>
    let role := toLower (trimSpace c.role)
    if role = "commander" ∨ role = "chief" ∨ role = "admin" then 3
    else if role = "dispatcher" ∨ role = "supervisor" ∨ role = "operator" then 2
    else 1

example : getPriority (some { id := "disp1", callsign := "D", role := " Dispatcher\n" }) = 2 := by
  decide

end TwoWayRadio
