import LineCalculator.Syntax.Parse

/-!
# Reading without a report

A feed is silent while nothing has been reported and no fault has been met.  Silence
is lost for good: a reader that reports leaves a feed that every later reader keeps
loud.  What happens to the tokens matters only as long as the feed is silent, and
then drawing and handing back are all that happens to them.

A line is read in two parts, what it says and its end (`Reader.line_eq`).  The first
may look beyond the line and hands back what it finds there, so that the second sees
where the first has stopped.
-/

namespace LineCalculator

namespace Feed

/-- The tokens that are still to come. -/
def remaining (feed : Feed) : List Token := feed.tokens.toList

/-- The diagnostics that have been reported, in their order. -/
def diagnostics (feed : Feed) : List Diagnostic := feed.readings.toList.filterMap (·.diagnostic?)

/-- What is reported comes after what has been. -/
@[simp] theorem diagnostics_note (feed : Feed) (d : Diagnostic) :
    (feed.note (.reported d)).diagnostics = feed.diagnostics ++ [d] := by
  simp [diagnostics, note, Reading.diagnostic?]

/-- Nothing has been reported and no fault been met. -/
def Silent (feed : Feed) : Prop := feed.failed = false ∧ feed.diagnostics = []

/-- Some tokens of a feed, and what comes after them if they run out, are the end
of a line. -/
def EndsLine (rest : List Token) (fault : Option ScanFault) : Prop :=
  rest = [] ∧ fault = none ∨ ∃ t later, rest = t :: later ∧ t.kind = .newline

/-- A line ends where some tokens begin, unless a fault keeps it from ending. -/
def AtEnd (rest : List Token) : Prop := ∀ u ∈ rest.head?, u.kind = .newline

theorem EndsLine.atEnd {rest : List Token} {fault : Option ScanFault} (h : EndsLine rest fault) :
    AtEnd rest := by
  rcases h with ⟨rfl, -⟩ | ⟨t, later, rfl, ht⟩
  · simp [AtEnd]
  · simpa [AtEnd] using ht

theorem EndsLine.fault_eq_none {rest : List Token} {fault : Option ScanFault}
    (h : EndsLine rest fault) (hrest : rest = []) : fault = none := by
  rcases h with ⟨-, hfault⟩ | ⟨t, later, rfl, -⟩
  · exact hfault
  · exact absurd hrest (List.cons_ne_nil t later)

/-- One feed comes from another by reading that reports nothing and meets no
fault. -/
structure Quietly (feed after : Feed) : Prop where
  fault : after.fault = feed.fault
  failed : after.failed = feed.failed
  diagnostics : after.diagnostics = feed.diagnostics

theorem Quietly.refl (feed : Feed) : feed.Quietly feed := ⟨rfl, rfl, rfl⟩

theorem Quietly.trans {feed mid after : Feed} (h : feed.Quietly mid) (h' : mid.Quietly after) :
    feed.Quietly after :=
  ⟨h'.fault.trans h.fault, h'.failed.trans h.failed, h'.diagnostics.trans h.diagnostics⟩

theorem Quietly.silent_iff {feed after : Feed} (h : feed.Quietly after) :
    after.Silent ↔ feed.Silent := by
  unfold Silent
  rw [h.failed, h.diagnostics]

/-- A feed is not silent once something has been reported. -/
theorem not_silent_note (feed : Feed) (d : Diagnostic) : ¬ (feed.note (.reported d)).Silent := by
  rintro ⟨-, hnone⟩
  rw [diagnostics_note] at hnone
  exact List.append_ne_nil_of_right_ne_nil _ (List.cons_ne_nil _ _) hnone

end Feed

/-- A want of room is reported last. -/
theorem Parse.diagnostics_ofResult_tooDeep (feed : Feed) :
    (Parse.ofResult (.error .tooDeep feed)).diagnostics =
      feed.diagnostics ++ [.parse .tooDeep] :=
  feed.diagnostics_note (.parse .tooDeep)

namespace Reader

variable {α β : Type}

/-! ## Drawing and handing back -/

theorem draw_cons {feed : Feed} {t : Token} {rest : List Token} (h : feed.remaining = t :: rest) :
    ∃ after, draw feed = .ok (some t) after ∧ feed.Quietly after ∧ after.remaining = rest := by
  obtain ⟨⟨returned, coming⟩, fault, failed, readings⟩ := feed
  cases returned with
  | cons u returned =>
    obtain ⟨rfl, rfl⟩ := List.cons.inj h
    exact ⟨_, rfl, ⟨rfl, rfl, rfl⟩, rfl⟩
  | nil =>
    cases coming with
    | nil => exact absurd h (by simp [Feed.remaining, Lookahead.toList])
    | cons u coming =>
      obtain ⟨rfl, rfl⟩ := List.cons.inj h
      refine ⟨_, rfl, ⟨rfl, rfl, ?_⟩, rfl⟩
      simp [Feed.diagnostics, Reading.diagnostic?]

theorem draw_end {feed : Feed} (h : feed.remaining = []) (hfault : feed.fault = none) :
    draw feed = .ok none feed := by
  obtain ⟨⟨returned, coming⟩, fault, failed, readings⟩ := feed
  obtain ⟨rfl, rfl⟩ := List.append_eq_nil_iff.1 h
  subst hfault
  rfl

theorem draw_fault {feed : Feed} (h : feed.remaining = []) (hfault : feed.fault ≠ none) :
    ∃ after, draw feed = .ok none after ∧ ¬ after.Silent := by
  obtain ⟨⟨returned, coming⟩, fault, failed, readings⟩ := feed
  obtain ⟨rfl, rfl⟩ := List.append_eq_nil_iff.1 h
  cases fault with
  | none => exact absurd rfl hfault
  | some f => exact ⟨_, rfl, fun hsilent => absurd hsilent.1 (by simp)⟩

theorem handBack_eq (t : Token) (feed : Feed) :
    ∃ after, handBack t feed = .ok () after ∧ feed.Quietly after ∧
      after.remaining = t :: feed.remaining :=
  ⟨_, rfl, ⟨rfl, rfl, rfl⟩, rfl⟩

/-! ## One reader after another -/

theorem bind_of_ok {reader : Reader α} {next : α → Reader β} {feed after : Feed} {a : α}
    (h : reader feed = .ok a after) : (reader >>= next) feed = next a after := by
  show EStateM.bind reader next feed = _
  rw [EStateM.bind, h]

theorem bind_of_error {reader : Reader α} {next : α → Reader β} {feed after : Feed}
    {refusal : Refusal} (h : reader feed = .error refusal after) :
    (reader >>= next) feed = .error refusal after := by
  show EStateM.bind reader next feed = _
  rw [EStateM.bind, h]

/-- A reader that goes on from another one has gone on from what that one read. -/
theorem bind_eq_ok {reader : Reader α} {next : α → Reader β} {feed after : Feed} {b : β}
    (h : (reader >>= next) feed = .ok b after) :
    ∃ a mid, reader feed = .ok a mid ∧ next a mid = .ok b after := by
  cases hr : reader feed with
  | ok a mid => exact ⟨a, mid, rfl, (bind_of_ok hr).symm.trans h⟩
  | error refusal mid => exact absurd ((bind_of_error hr).symm.trans h) (by simp)

/-- A reader that refuses after another one was refused, or refused itself. -/
theorem bind_eq_error {reader : Reader α} {next : α → Reader β} {feed after : Feed}
    {refusal : Refusal} (h : (reader >>= next) feed = .error refusal after) :
    reader feed = .error refusal after ∨
      ∃ a mid, reader feed = .ok a mid ∧ next a mid = .error refusal after := by
  cases hr : reader feed with
  | ok a mid => exact Or.inr ⟨a, mid, rfl, (bind_of_ok hr).symm.trans h⟩
  | error refusal' mid =>
    rw [bind_of_error hr] at h
    cases h
    exact Or.inl rfl

/-! ## Phrases that may be missing -/

theorem optional_of_ok {reader : Reader α} {feed after : Feed} {a : α}
    (h : reader feed = .ok a after) : optional reader feed = .ok (some a) after := by
  rw [optional, h]

theorem optional_of_unparsable {reader : Reader α} {feed after : Feed}
    (h : reader feed = .error .unparsable after) : optional reader feed = .ok none after := by
  rw [optional, h]

theorem optional_of_tooDeep {reader : Reader α} {feed after : Feed}
    (h : reader feed = .error .tooDeep after) :
    optional reader feed = .error .tooDeep after := by
  rw [optional, h]

/-! ## The parts of a line -/

/-- Reads a command, if the line is one. -/
def command : Reader (Option Line) := do
  match ← exitCommand with
  | some command => pure (some command)
  | none => deleteCommand

/-- Reads what a line says. -/
def content (supply room : Nat) : Reader Line := do
  match ← command with
  | some command => pure command
  | none =>
    let e ← phrase supply room .expression
    pure (.expression e)

/-- Reads the end of a line that says something. -/
def ending (read : Line) : Reader Line := do
  endOfLine
  soundSource
  pure read

theorem line_eq (supply room : Nat) : line supply room = content supply room >>= ending := by
  unfold line content command ending
  simp only [bind_assoc]
  refine bind_congr fun command? => ?_
  cases command? with
  | some command => simp only [pure_bind]
  | none =>
    refine bind_congr fun command? => ?_
    cases command? with
    | some command => simp only [pure_bind]
    | none => simp only [bind_assoc, pure_bind]

end Reader

end LineCalculator
