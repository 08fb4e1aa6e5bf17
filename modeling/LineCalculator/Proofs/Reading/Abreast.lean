import LineCalculator.Proofs.Reading.Silence

/-!
# A line and the lines behind it

How a reader fares on the tokens of a line, alone and with a newline and further tokens
behind them.  The two runs are followed side by side; they go the same way until the first
of them comes to the end of its tokens and the second to the newline.

## What the newline does

Where a reader only looks for more, the end and the newline come to the same: the newline
is handed back.  Where a token has to follow, the end of input is reported in the one run
and the newline is refused in the other, but the newline has been drawn then and stays
drawn.  If a reader that can do without the missing phrase goes on after that, it goes on
at the end of the tokens in the one run and with the next line in the other.

## The judgement

`Abreast may supply reader longer` says that `reader`, on fewer than `supply` tokens
without a fault, fares in one of four ways (`Fares`):

1. it yields something, and so does the other run, in front of the newline;
2. it refuses in front of the newline, and so does the other run;
3. it is cut off: the end of input is reported once, and the other run refuses the newline;
4. it is cut off and something goes on.  The end of input is reported, and again if the
   phrase is refused in the end; but the other run yields a phrase if behind the newline
   stand as many closing brackets as it needs.

The last two can be excluded with `may`.  The bounds of the loops grow with the tokens, so
the readers of the longer run are indexed by how much greater its bounds are.
-/

namespace LineCalculator

namespace Feed

/-- How often the end of input has been reported. -/
def ends (feed : Feed) : Nat := feed.diagnostics.count (.parse .endOfInput)

/-- A feed holds some tokens and then a fault or the end, and has not met a fault. -/
structure Holds (feed : Feed) (ts : List Token) (fault : Option ScanFault) : Prop where
  remaining : feed.remaining = ts
  fault : feed.fault = fault
  failed : feed.failed = false

theorem Quietly.ends {feed after : Feed} (h : feed.Quietly after) : after.ends = feed.ends := by
  unfold Feed.ends
  rw [h.diagnostics]

theorem Quietly.holds {feed after : Feed} {ts rest : List Token} {fault : Option ScanFault}
    (h : feed.Quietly after) (hfeed : feed.Holds ts fault) (hrest : after.remaining = rest) :
    after.Holds rest fault :=
  ⟨hrest, h.fault.trans hfeed.fault, h.failed.trans hfeed.failed⟩

theorem Holds.note {feed : Feed} {ts : List Token} {fault : Option ScanFault}
    (h : feed.Holds ts fault) (reading : Reading) : (feed.note reading).Holds ts fault :=
  ⟨h.remaining, h.fault, h.failed⟩

theorem ends_note (feed : Feed) (f : ParseFault) :
    (feed.note (.reported (.parse f))).ends = feed.ends + if f = .endOfInput then 1 else 0 := by
  unfold ends
  rw [diagnostics_note, List.count_append, List.count_singleton]
  simp

end Feed

/-- What stands behind a line: a newline, further tokens, and the fault that may end
them. -/
structure NextLine where
  newline : Token
  kind : newline.kind = .newline
  later : List Token
  fault : Option ScanFault

/-- All tokens behind a line. -/
def NextLine.tokens (next : NextLine) : List Token := next.newline :: next.later

/-- A feed holds some tokens and then a next line, and fewer tokens than a bound. -/
structure Feed.Continues (feed : Feed) (ts : List Token) (next : NextLine) (bound : Nat) :
    Prop where
  holds : feed.Holds (ts ++ next.tokens) next.fault
  length : (ts ++ next.tokens).length < bound

/-- Some tokens are closing brackets, as many as given. -/
def Brackets (n : Nat) (ts : List Token) : Prop :=
  ts.map (·.kind) = List.replicate n .closeBracket

theorem Brackets.exists_cons {n : Nat} {ts : List Token} (h : Brackets (n + 1) ts) :
    ∃ ket rest, ts = ket :: rest ∧ ket.kind = .closeBracket ∧ Brackets n rest := by
  obtain ⟨ket, rest, rfl, hket, hrest⟩ := List.map_eq_cons_iff.1 h
  exact ⟨ket, rest, rfl, hket, hrest⟩

theorem Brackets.eq_nil {ts : List Token} (h : Brackets 0 ts) : ts = [] := List.map_eq_nil_iff.1 h

namespace Reader

variable {α β : Type}

/-! ## Drawing and handing back -/

theorem draw_holds {feed : Feed} {t : Token} {rest : List Token} {fault : Option ScanFault}
    (h : feed.Holds (t :: rest) fault) :
    ∃ after, draw feed = .ok (some t) after ∧ after.Holds rest fault ∧ after.ends = feed.ends := by
  obtain ⟨after, hdraw, hquiet, hrest⟩ := draw_cons h.remaining
  exact ⟨after, hdraw, hquiet.holds h hrest, hquiet.ends⟩

theorem draw_spent {feed : Feed} (h : feed.Holds [] none) : draw feed = .ok none feed :=
  draw_end h.remaining h.fault

theorem handBack_holds {feed : Feed} {rest : List Token} {fault : Option ScanFault} (t : Token)
    (h : feed.Holds rest fault) :
    ∃ after, handBack t feed = .ok () after ∧ after.Holds (t :: rest) fault ∧
      after.ends = feed.ends := by
  obtain ⟨after, hback, hquiet, hrest⟩ := handBack_eq t feed
  exact ⟨after, hback, hquiet.holds h (hrest.trans (congrArg _ h.remaining)), hquiet.ends⟩

theorem expect_holds {feed : Feed} {t : Token} {rest : List Token} {fault : Option ScanFault}
    (h : feed.Holds (t :: rest) fault) :
    ∃ after, expect feed = .ok t after ∧ after.Holds rest fault ∧ after.ends = feed.ends := by
  obtain ⟨after, hdraw, hafter⟩ := draw_holds h
  exact ⟨after, bind_of_ok hdraw, hafter⟩

theorem expect_spent {feed : Feed} (h : feed.Holds [] none) :
    ∃ after, expect feed = .error .unparsable after ∧ after.Holds [] none ∧
      after.ends = feed.ends + 1 := by
  refine ⟨feed.note (.reported (.parse .endOfInput)), ?_, h.note _, feed.ends_note .endOfInput⟩
  unfold expect
  rw [bind_of_ok (draw_spent h)]
  exact if_neg (by simp [h.failed])

/-! ## Behind the end -/

/-- A run has missed a token `missed` times and yielded something, or once more and has
refused. -/
inductive Misses (missed : Nat) (feed : Feed) : EStateM.Result Refusal Feed α → Prop
  | ok {a : α} {after : Feed} (holds : after.Holds [] none)
      (ends : feed.ends + missed ≤ after.ends) : Misses missed feed (.ok a after)
  | error {after : Feed} (holds : after.Holds [] none)
      (ends : feed.ends + missed + 1 ≤ after.ends) : Misses missed feed (.error .unparsable after)

theorem Misses.of_ends {missed : Nat} {feed mid : Feed} {result : EStateM.Result Refusal Feed α}
    (h : Misses missed mid result) (hends : mid.ends = feed.ends) : Misses missed feed result := by
  cases h with
  | ok holds ends => exact .ok holds (hends ▸ ends)
  | error holds ends => exact .error holds (hends ▸ ends)

theorem Misses.add {missed : Nat} {feed mid : Feed} {result : EStateM.Result Refusal Feed α}
    (h : Misses 0 mid result) (hends : feed.ends + missed ≤ mid.ends) :
    Misses missed feed result := by
  cases h with
  | ok holds ends => exact .ok holds (Nat.le_trans hends ends)
  | error holds ends => exact .error holds (Nat.le_trans (Nat.succ_le_succ hends) ends)

/-- A run has yielded something in front of closing brackets. -/
def Leaves (n : Nat) (result : EStateM.Result Refusal Feed α) : Prop :=
  ∃ a after rest, result = .ok a after ∧ after.Holds rest none ∧ Brackets n rest

/-- A reader that is behind the end has come to something, at most by missing more. -/
def Rests (reader : Reader α) : Prop :=
  ∀ feed : Feed, feed.Holds [] none → Misses 0 feed (reader feed)

/-- A reader completes what has been begun with as many closing brackets as given. -/
def Completes (count : Nat) (reader : Reader α) : Prop :=
  ∀ (feed : Feed) (ts : List Token) (n : Nat), feed.Holds ts none → Brackets (n + count) ts →
    Leaves n (reader feed)

namespace Rests

theorem pure (a : α) : Rests (Pure.pure a) := fun _ hfeed => .ok hfeed (Nat.le_refl _)

theorem draw_bind {next : Option Token → Reader α} (h : Rests (next none)) :
    Rests (Reader.draw >>= next) := by
  intro feed hfeed
  rw [bind_of_ok (draw_spent hfeed)]
  exact h feed hfeed

theorem expect_bind (next : Token → Reader α) : Rests (Reader.expect >>= next) := by
  intro feed hfeed
  obtain ⟨after, hexpect, hafter, hends⟩ := expect_spent hfeed
  rw [bind_of_error hexpect]
  exact .error hafter (Nat.le_of_eq hends.symm)

theorem bind_pure {reader : Reader α} {f : α → β} (h : Rests reader) :
    Rests (reader >>= fun a => Pure.pure (f a)) := by
  intro feed hfeed
  have hmisses := h feed hfeed
  generalize hread : reader feed = result at hmisses
  cases hmisses with
  | ok holds ends =>
    rw [bind_of_ok hread]
    exact .ok holds ends
  | error holds ends =>
    rw [bind_of_error hread]
    exact .error holds ends

end Rests

namespace Completes

theorem pure (a : α) : Completes 0 (Pure.pure a) := fun feed ts _ hfeed hts =>
  ⟨a, feed, ts, rfl, hfeed, hts⟩

/-- A reader that looks for more finds no closing bracket to its liking. -/
theorem peek {next : Option Token → Reader α} {a : α} (hnone : next none = Pure.pure a)
    (hket : ∀ ket : Token, ket.kind = .closeBracket →
      next (some ket) = Reader.handBack ket >>= fun _ => Pure.pure a) :
    Completes 0 (Reader.draw >>= next) := by
  intro feed ts n hfeed hts
  cases n with
  | zero =>
    obtain rfl := hts.eq_nil
    rw [bind_of_ok (draw_spent hfeed), hnone]
    exact ⟨a, feed, [], rfl, hfeed, hts⟩
  | succ n =>
    obtain ⟨ket, rest, rfl, hkind, -⟩ := Brackets.exists_cons hts
    obtain ⟨mid, hdraw, hmid, -⟩ := draw_holds hfeed
    obtain ⟨after, hback, hafter, -⟩ := handBack_holds ket hmid
    rw [bind_of_ok hdraw, hket ket hkind, bind_of_ok hback]
    exact ⟨a, after, ket :: rest, rfl, hafter, hts⟩

theorem expect_bind {next : Token → Reader α} {a : α}
    (hket : ∀ ket : Token, ket.kind = .closeBracket → next ket = Pure.pure a) :
    Completes 1 (Reader.expect >>= next) := by
  intro feed ts n hfeed hts
  obtain ⟨ket, rest, rfl, hkind, hrest⟩ := Brackets.exists_cons hts
  obtain ⟨after, hexpect, hafter, -⟩ := expect_holds hfeed
  rw [bind_of_ok hexpect, hket ket hkind]
  exact ⟨a, after, rest, rfl, hafter, hrest⟩

theorem bind_pure {count : Nat} {reader : Reader α} {f : α → β} (h : Completes count reader) :
    Completes count (reader >>= fun a => Pure.pure (f a)) := by
  intro feed ts n hfeed hts
  obtain ⟨a, after, rest, hread, hrest⟩ := h feed ts n hfeed hts
  exact ⟨f a, after, rest, bind_of_ok hread, hrest⟩

end Completes

/-! ## The judgement -/

/-- How a run on some tokens fares beside one in which a next line stands behind them. -/
inductive Fares (may : Prop) (supply : Nat) (longer : Nat → Reader α) (feed : Feed)
    (ts : List Token) : EStateM.Result Refusal Feed α → Prop
  | alike {a : α} {after : Feed} {rest : List Token} (holds : after.Holds rest none)
      (ends : after.ends = feed.ends) (length : rest.length ≤ ts.length)
      (same : ∀ excess next (other : Feed), other.Continues ts next (excess + supply) →
        ∃ after', longer excess other = .ok a after' ∧
          after'.Holds (rest ++ next.tokens) next.fault) :
      Fares may supply longer feed ts (.ok a after)
  | refused {refusal : Refusal} {after : Feed} {rest : List Token}
      (holds : after.Holds rest none) (ends : after.ends = feed.ends)
      (length : rest.length ≤ ts.length)
      (same : ∀ excess next (other : Feed), other.Continues ts next (excess + supply) →
        ∃ after', longer excess other = .error refusal after' ∧
          after'.Holds (rest ++ next.tokens) next.fault) :
      Fares may supply longer feed ts (.error refusal after)
  | cut {after : Feed} (hmay : may) (holds : after.Holds [] none)
      (ends : after.ends = feed.ends + 1)
      (same : ∀ excess next (other : Feed), other.Continues ts next (excess + supply) →
        ∃ after', longer excess other = .error .unparsable after' ∧
          after'.Holds next.later next.fault) :
      Fares may supply longer feed ts (.error .unparsable after)
  | completed {result : EStateM.Result Refusal Feed α} (hmay : may) (misses : Misses 1 feed result)
      (count : Nat)
      (completes : ∀ excess next (other : Feed), other.Continues ts next (excess + supply) →
        next.fault = none → ∀ n, Brackets (n + count) next.later → Leaves n (longer excess other)) :
      Fares may supply longer feed ts result

/-- What comes of a run is what comes of it from where both runs have come alike. -/
theorem Fares.after {may : Prop} {supply supply' : Nat} {longer longer' : Nat → Reader α}
    {feed mid : Feed} {ts rest : List Token} {result : EStateM.Result Refusal Feed α}
    (h : Fares may supply' longer' mid rest result) (hends : mid.ends = feed.ends)
    (hlength : rest.length ≤ ts.length) (hbound : rest.length + supply ≤ ts.length + supply')
    (hsame : ∀ excess next (other : Feed), other.Continues ts next (excess + supply) →
      ∃ other', longer excess other = longer' excess other' ∧
        other'.Holds (rest ++ next.tokens) next.fault) :
    Fares may supply longer feed ts result := by
  have hmid : ∀ excess next (other : Feed), other.Continues ts next (excess + supply) →
      ∃ other', longer excess other = longer' excess other' ∧
        other'.Continues rest next (excess + supply') := by
    intro excess next other hother
    obtain ⟨other', heq, hother'⟩ := hsame excess next other hother
    have hlt := hother.length
    refine ⟨other', heq, hother', ?_⟩
    rw [List.length_append] at hlt ⊢
    omega
  cases h with
  | alike holds ends length same =>
    refine .alike holds (ends.trans hends) (Nat.le_trans length hlength)
      fun excess next other h => ?_
    obtain ⟨other', heq, hother'⟩ := hmid excess next other h
    rw [heq]
    exact same excess next other' hother'
  | refused holds ends length same =>
    refine .refused holds (ends.trans hends) (Nat.le_trans length hlength)
      fun excess next other h => ?_
    obtain ⟨other', heq, hother'⟩ := hmid excess next other h
    rw [heq]
    exact same excess next other' hother'
  | cut hmay holds ends same =>
    refine .cut hmay holds (hends ▸ ends) fun excess next other h => ?_
    obtain ⟨other', heq, hother'⟩ := hmid excess next other h
    rw [heq]
    exact same excess next other' hother'
  | completed hmay misses count completes =>
    refine .completed hmay (misses.of_ends hends) count fun excess next other h => ?_
    obtain ⟨other', heq, hother'⟩ := hmid excess next other h
    rw [heq]
    exact completes excess next other' hother'

/-- A reader fares on the tokens of a line beside one that has a next line before it. -/
def Abreast (may : Prop) (supply : Nat) (reader : Reader α) (longer : Nat → Reader α) : Prop :=
  ∀ feed ts, feed.Holds ts none → ts.length < supply → Fares may supply longer feed ts (reader feed)

/-- The same for a reader that goes on from a token that has just been drawn. -/
def AbreastAfter (may : Prop) (t : Token) (supply : Nat) (reader : Reader α)
    (longer : Nat → Reader α) : Prop :=
  ∀ feed ts, feed.Holds (t :: ts) none → ts.length < supply →
    Fares may (supply + 1) (fun excess => draw >>= fun _ => longer excess) feed (t :: ts)
      ((draw >>= fun _ => reader) feed)

/-! ## Rules -/

namespace Abreast

variable {may may' : Prop} {supply : Nat}

/-- No tokens are fewer than none. -/
theorem zero {reader : Reader α} {longer : Nat → Reader α} : Abreast may 0 reader longer :=
  fun _ _ _ hlength => absurd hlength (Nat.not_lt_zero _)

theorem mono {reader : Reader α} {longer : Nat → Reader α} {supply' : Nat}
    (h : Abreast may supply reader longer) (hsupply : supply' ≤ supply) :
    Abreast may supply' reader longer := fun feed ts hfeed hlength =>
  (h feed ts hfeed (Nat.lt_of_lt_of_le hlength hsupply)).after rfl (Nat.le_refl _)
    (Nat.add_le_add_left hsupply _) fun _ _ other hother => ⟨other, rfl, hother.holds⟩

theorem pure {a : α} : Abreast may supply (Pure.pure a) fun _ => Pure.pure a :=
  fun _ _ hfeed _ => .alike hfeed rfl (Nat.le_refl _) fun _ _ other hother =>
    ⟨other, rfl, hother.holds⟩

theorem overflow : Abreast (α := α) may supply Reader.overflow fun _ => Reader.overflow :=
  fun _ _ hfeed _ => .refused hfeed rfl (Nat.le_refl _) fun _ _ other hother =>
    ⟨other, rfl, hother.holds⟩

/-- A token is refused alike; only the end of input is not. -/
theorem refuse {f : ParseFault} (hf : f ≠ .endOfInput) :
    Abreast (α := α) may supply (Reader.refuse f) fun _ => Reader.refuse f := by
  intro feed ts hfeed _
  refine .refused (hfeed.note _) ?_ (Nat.le_refl _) fun _ _ _ hother =>
    ⟨_, rfl, hother.holds.note _⟩
  rw [Feed.ends_note, if_neg hf, Nat.add_zero]

/-- What has gone on behind the end is settled by what comes after it. -/
theorem bind {reader : Reader α} {longer : Nat → Reader α} {next : α → Reader β}
    {next' : Nat → α → Reader β} (hreader : Abreast may supply reader longer)
    (hnext : ∀ a, Abreast may' supply (next a) fun excess => next' excess a)
    (hsettles : may → may' ∧ (∀ a, Rests (next a)) ∧
      ∃ count, ∀ excess a, Completes count (next' excess a)) :
    Abreast may' supply (reader >>= next) fun excess => longer excess >>= next' excess := by
  intro feed ts hfeed hlength
  have hfares := hreader feed ts hfeed hlength
  generalize hread : reader feed = result at hfares
  cases hfares with
  | @alike a mid rest holds ends length same =>
    rw [bind_of_ok hread]
    have hrest := Nat.lt_of_le_of_lt length hlength
    refine (hnext a mid rest holds hrest).after ends length (Nat.add_le_add_right length _)
      fun excess next other hother => ?_
    obtain ⟨other', hread', hother'⟩ := same excess next other hother
    exact ⟨other', bind_of_ok hread', hother'⟩
  | refused holds ends length same =>
    rw [bind_of_error hread]
    refine .refused holds ends length fun excess next other hother => ?_
    obtain ⟨other', hread', hother'⟩ := same excess next other hother
    exact ⟨other', bind_of_error hread', hother'⟩
  | cut hmay holds ends same =>
    rw [bind_of_error hread]
    refine .cut (hsettles hmay).1 holds ends fun excess next other hother => ?_
    obtain ⟨other', hread', hother'⟩ := same excess next other hother
    exact ⟨other', bind_of_error hread', hother'⟩
  | completed hmay misses count completes =>
    -- the brackets the first reader needs stand in front of those the second one needs
    obtain ⟨hmay', hrests, count', hcompletes'⟩ := hsettles hmay
    have hcompletes : ∀ excess next (other : Feed), other.Continues ts next (excess + supply) →
        next.fault = none → ∀ n, Brackets (n + (count' + count)) next.later →
          Leaves n ((longer excess >>= next' excess) other) := by
      intro excess next other hother hfault n hlater
      rw [← Nat.add_assoc] at hlater
      obtain ⟨a, mid, rest, hread', hmid, hrest⟩ :=
        completes excess next other hother hfault (n + count') hlater
      rw [bind_of_ok hread']
      exact hcompletes' excess a mid rest n hmid hrest
    cases misses with
    | @ok a mid holds ends =>
      rw [bind_of_ok hread]
      exact .completed hmay' ((hrests a mid holds).add ends) (count' + count) hcompletes
    | error holds ends =>
      rw [bind_of_error hread]
      exact .completed hmay' (.error holds ends) (count' + count) hcompletes

theorem bind_pure {reader : Reader α} {longer : Nat → Reader α} {f : α → β}
    (hreader : Abreast may supply reader longer) :
    Abreast may supply (reader >>= fun a => Pure.pure (f a)) fun excess =>
      longer excess >>= fun a => Pure.pure (f a) :=
  hreader.bind (fun _ => .pure) fun hmay => ⟨hmay, fun _ => .pure _, 0, fun _ _ => .pure _⟩

/-- A reader that looks for a token finds none, or the newline and hands it back. -/
theorem draw_bind {next : Option Token → Reader β} {next' : Nat → Option Token → Reader β}
    {again : Nat → Reader β} (hnone : Abreast may (supply + 1) (next none) again)
    (hnewline : ∀ excess t, t.kind = .newline →
      next' excess (some t) = Reader.handBack t >>= fun _ => again excess)
    (hsome : ∀ t, AbreastAfter may t supply (next (some t)) fun excess => next' excess (some t)) :
    Abreast may (supply + 1) (Reader.draw >>= next) fun excess => Reader.draw >>= next' excess := by
  intro feed ts hfeed hlength
  cases ts with
  | nil =>
    rw [bind_of_ok (draw_spent hfeed)]
    refine (hnone feed [] hfeed hlength).after rfl (Nat.le_refl _) (Nat.le_refl _)
      fun excess next other hother => ?_
    obtain ⟨mid, hdraw, hmid, -⟩ := draw_holds hother.holds
    obtain ⟨other', hback, hother', -⟩ := handBack_holds next.newline hmid
    exact ⟨other', by rw [bind_of_ok hdraw, hnewline _ _ next.kind, bind_of_ok hback], hother'⟩
  | cons t ts =>
    have hfares := hsome t feed ts hfeed (Nat.lt_of_succ_lt_succ hlength)
    obtain ⟨mid, hdraw, -, -⟩ := draw_holds hfeed
    rw [bind_of_ok hdraw] at hfares ⊢
    refine hfares.after rfl (Nat.le_refl _) (Nat.le_refl _) fun excess next other hother => ?_
    obtain ⟨mid', hdraw', -, -⟩ := draw_holds hother.holds
    exact ⟨other, by rw [bind_of_ok hdraw', bind_of_ok hdraw'], hother.holds⟩

/-- A reader that needs a token is cut off at the end, and refuses the newline. -/
theorem expect_bind {next : Token → Reader β} {next' : Nat → Token → Reader β} (hmay : may)
    (hnewline : ∀ excess t, t.kind = .newline →
      next' excess t = Reader.refuse (.unexpectedToken t))
    (hsome : ∀ t, Abreast may supply (next t) fun excess => next' excess t) :
    Abreast may (supply + 1) (Reader.expect >>= next) fun excess =>
      Reader.expect >>= next' excess := by
  intro feed ts hfeed hlength
  cases ts with
  | nil =>
    obtain ⟨after, hexpect, hafter, hends⟩ := expect_spent hfeed
    rw [bind_of_error hexpect]
    refine .cut hmay hafter hends fun excess next other hother => ?_
    obtain ⟨mid, hexpect', hmid, -⟩ := expect_holds hother.holds
    exact ⟨_, by rw [bind_of_ok hexpect', hnewline _ _ next.kind]; rfl, hmid.note _⟩
  | cons t ts =>
    obtain ⟨mid, hexpect, hmid, hends⟩ := expect_holds hfeed
    rw [bind_of_ok hexpect]
    refine (hsome t mid ts hmid (Nat.lt_of_succ_lt_succ hlength)).after hends
      (Nat.le_succ _) (by rw [List.length_cons]; omega) fun excess next other hother => ?_
    obtain ⟨mid', hexpect', hmid', -⟩ := expect_holds hother.holds
    exact ⟨mid', bind_of_ok hexpect', hmid'⟩

/-- What has been cut off goes on as if the phrase were missing. -/
theorem optional {reader : Reader α} {longer : Nat → Reader α}
    (h : Abreast may supply reader longer) :
    Abreast may supply (Reader.optional reader) fun excess => Reader.optional (longer excess) := by
  intro feed ts hfeed hlength
  have hfares := h feed ts hfeed hlength
  generalize hread : reader feed = result at hfares
  cases hfares with
  | alike holds ends length same =>
    rw [optional_of_ok hread]
    refine .alike holds ends length fun excess next other hother => ?_
    obtain ⟨other', hread', hother'⟩ := same excess next other hother
    exact ⟨other', optional_of_ok hread', hother'⟩
  | @refused refusal after rest holds ends length same =>
    cases refusal with
    | unparsable =>
      rw [optional_of_unparsable hread]
      refine .alike holds ends length fun excess next other hother => ?_
      obtain ⟨other', hread', hother'⟩ := same excess next other hother
      exact ⟨other', optional_of_unparsable hread', hother'⟩
    | tooDeep =>
      rw [optional_of_tooDeep hread]
      refine .refused holds ends length fun excess next other hother => ?_
      obtain ⟨other', hread', hother'⟩ := same excess next other hother
      exact ⟨other', optional_of_tooDeep hread', hother'⟩
  | cut hmay holds ends same =>
    -- from here on the runs go apart: this one is at the end, the other on the next line
    rw [optional_of_unparsable hread]
    refine .completed hmay (.ok holds (Nat.le_of_eq ends.symm)) 0
      fun excess next other hother hfault n hlater => ?_
    obtain ⟨other', hread', hother'⟩ := same excess next other hother
    rw [hfault] at hother'
    exact ⟨none, other', next.later, optional_of_unparsable hread', hother', hlater⟩
  | completed hmay misses count completes =>
    have hcompletes : ∀ excess next (other : Feed), other.Continues ts next (excess + supply) →
        next.fault = none → ∀ n, Brackets (n + count) next.later →
          Leaves n (Reader.optional (longer excess) other) := by
      intro excess next other hother hfault n hlater
      obtain ⟨a, after', rest, hread', hrest⟩ :=
        completes excess next other hother hfault n hlater
      exact ⟨some a, after', rest, optional_of_ok hread', hrest⟩
    cases misses with
    | ok holds ends =>
      rw [optional_of_ok hread]
      exact .completed hmay (.ok holds ends) count hcompletes
    | error holds ends =>
      rw [optional_of_unparsable hread]
      exact .completed hmay (.ok holds (Nat.le_of_succ_le ends)) count hcompletes

end Abreast

namespace AbreastAfter

variable {may : Prop} {supply : Nat} {t : Token}

/-- The token has been taken. -/
theorem take {reader : Reader α} {longer : Nat → Reader α} (h : Abreast may supply reader longer) :
    AbreastAfter may t supply reader longer := by
  intro feed ts hfeed hlength
  obtain ⟨mid, hdraw, hmid, hends⟩ := draw_holds hfeed
  rw [bind_of_ok hdraw]
  refine (h mid ts hmid hlength).after hends (Nat.le_succ _) (by rw [List.length_cons]; omega)
    fun excess next other hother => ?_
  obtain ⟨mid', hdraw', hmid', -⟩ := draw_holds hother.holds
  exact ⟨mid', bind_of_ok hdraw', hmid'⟩

/-- The token is handed back. -/
theorem handBack_bind {reader : Reader α} {longer : Nat → Reader α}
    (h : Abreast may (supply + 1) reader longer) :
    AbreastAfter may t supply (Reader.handBack t >>= fun _ => reader) fun excess =>
      Reader.handBack t >>= fun _ => longer excess := by
  have hagain : ∀ {feed : Feed} {ts : List Token} {fault : Option ScanFault},
      feed.Holds (t :: ts) fault → ∃ after, after.Holds (t :: ts) fault ∧
        after.ends = feed.ends ∧ ∀ reader : Reader α,
          (Reader.draw >>= fun _ => Reader.handBack t >>= fun _ => reader) feed = reader after := by
    intro feed ts fault hfeed
    obtain ⟨mid, hdraw, hmid, hends⟩ := draw_holds hfeed
    obtain ⟨after, hback, hafter, hends'⟩ := handBack_holds t hmid
    exact ⟨after, hafter, hends'.trans hends, fun reader => by
      rw [bind_of_ok hdraw, bind_of_ok hback]⟩
  intro feed ts hfeed hlength
  obtain ⟨after, hafter, hends, hread⟩ := hagain hfeed
  rw [hread]
  refine (h after (t :: ts) hafter (Nat.succ_lt_succ hlength)).after hends (Nat.le_refl _)
    (Nat.le_refl _) fun excess next other hother => ?_
  obtain ⟨after', hafter', -, hread'⟩ := hagain hother.holds
  exact ⟨after', hread' _, hafter'⟩

end AbreastAfter

end Reader

end LineCalculator
