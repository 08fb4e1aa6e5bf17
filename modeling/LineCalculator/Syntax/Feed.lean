import LineCalculator.Lookahead
import LineCalculator.Syntax.Diagnostic
import LineCalculator.Token.Scanner

/-!
# Reading from a feed of tokens

A line is read from a feed: the tokens of its text up to the first fault or the
end, one to be drawn after the other and any of them to be handed back.
Everything that can be seen of the reading is noted in the feed as it happens,
each token when it is drawn for the first time and each diagnostic when it is
reported.

## When a fault shows

The feed knows from the start what ends its tokens, but nobody hears of a fault
before something asks for a token beyond the last.  A line that is complete
before the fault is therefore read as if there were none.  Once the fault has
been met it is reported, and nothing more is drawn.

## What a reader is

A reader of phrases goes on from a feed and yields a phrase, or refuses.  A
refusal keeps the feed it was left with: tokens drawn stay drawn.  There are two
refusals, and they differ in who may go on after them.  After `unparsable`,
which has been reported, a reader that can do without the missing phrase goes
on.  After `tooDeep` none does.
-/

namespace LineCalculator

/-- Something that can be seen of the reading of a text. -/
inductive Reading where
  /-- A token was drawn for the first time. -/
  | drew (t : Token)
  /-- A diagnostic was reported. -/
  | reported (d : Diagnostic)
  deriving DecidableEq

/-- The diagnostic of a reading that is one. -/
def Reading.diagnostic? : Reading → Option Diagnostic
  | drew _ => none
  | reported d => some d

/-- The tokens of a text with the state of reading them. -/
structure Feed where
  /-- The tokens, up to the first fault of the text. -/
  tokens : Lookahead Token
  /-- The fault that the tokens end with and that nothing has met yet. -/
  fault : Option ScanFault
  /-- Whether a fault has been met. -/
  failed : Bool
  /-- What has been seen so far. -/
  readings : Array Reading

/-- Why a reader yields nothing. -/
inductive Refusal where
  /-- The phrase could not be read, and the reason has been reported. -/
  | unparsable
  /-- There was no room to read it. -/
  | tooDeep
  deriving DecidableEq

/-- A reader of phrases. -/
abbrev Reader := EStateM Refusal Feed

namespace Feed

/-- A feed of a list of tokens, ended by a fault or by the end of the text. -/
def ofTokens (tokens : List Token) (fault : Option ScanFault) : Feed :=
  ⟨Lookahead.ofList tokens, fault, false, #[]⟩

/-- The feed of a text. -/
def ofText (text : String) : Feed :=
  let scanned := (Scanner.ofText text).iterate
  ofTokens scanned.1 scanned.2.1

/-- A feed in which something more has been seen. -/
def note (feed : Feed) (reading : Reading) : Feed :=
  { feed with readings := feed.readings.push reading }

end Feed

namespace Reader

variable {α : Type}

/-- Draws the next token, if there is one. -/
def draw : Reader (Option Token) := fun feed =>
  match feed.tokens.returned, feed.tokens.coming, feed.fault with
  | t :: returned, coming, _ => .ok (some t) { feed with tokens := ⟨returned, coming⟩ }
  | [], t :: coming, _ =>
    .ok (some t) { feed with tokens := ⟨[], coming⟩, readings := feed.readings.push (.drew t) }
  | [], [], some f =>
    .ok none ⟨feed.tokens, none, true, feed.readings.push (.reported (.scan f))⟩
  | [], [], none => .ok none feed

/-- Hands a token back. -/
def handBack (t : Token) : Reader Unit := fun feed =>
  .ok () { feed with tokens := feed.tokens.push t }

/-- Reports what is wrong with the tokens, and refuses. -/
def refuse (f : ParseFault) : Reader α := fun feed =>
  .error .unparsable (feed.note (.reported (.parse f)))

/-- Refuses for want of room. -/
def overflow : Reader α := fun feed => .error .tooDeep feed

/-- Refuses because the tokens have ended.  A fault that ended them has been
reported already and is report enough. -/
def refuseEnd : Reader α := fun feed =>
  if feed.failed then .error .unparsable feed else refuse .endOfInput feed

/-- Draws the next token and refuses if there is none. -/
def expect : Reader Token := do
  match ← draw with
  | some t => pure t
  | none => refuseEnd

/-- Reads a phrase that may be missing: a refusal becomes nothing, and what was
drawn for it stays drawn. -/
def optional (reader : Reader α) : Reader (Option α) := fun feed =>
  match reader feed with
  | .ok phrase after => .ok (some phrase) after
  | .error .unparsable after => .ok none after
  | .error .tooDeep after => .error .tooDeep after

end Reader

end LineCalculator
