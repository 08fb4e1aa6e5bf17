import LineCalculator.Proofs.Reading.Completeness
import LineCalculator.Proofs.Reading.FirstLine
import LineCalculator.Proofs.Reading.Soundness

/-!
# The lines that are accepted

A text is accepted as a line if reading it yields the line and reports nothing.  The
texts accepted are those whose first line holds tokens of the grammar and no fault,
as long as there is room for their nesting.

## How the two halves meet

What is read silently of a feed is in the grammar and goes to the end of a line
(`Reader.line_sound`); the first line of the text ends nowhere else, so these are its
tokens.  Conversely the tokens of a line have a depth, and with that much room they
are read as what they say (`WholeLine.yields_line`).  As the depth is one of the
tokens alone, two texts with the same first line have room for it both or neither,
and so nothing behind the first newline matters to a line that is accepted.
-/

namespace LineCalculator

open Grammar

/-- Reading has yielded a line and reported nothing. -/
def Parse.Accepts (p : Parse) (l : Line) : Prop := p.line? = some l ∧ p.diagnostics = []

/-! ## The tokens of a line -/

/-- The tokens up to the end of a line are determined by what they begin. -/
theorem Feed.EndsLine.eq_of_append_eq {ts us rest more : List Token} {fault : Option ScanFault}
    (hrest : EndsLine rest fault) (hmore : EndsLine more fault)
    (hts : ∀ t ∈ ts, t.kind ≠ .newline) (hus : ∀ t ∈ us, t.kind ≠ .newline)
    (h : ts ++ rest = us ++ more) : ts = us := by
  have hline : ∀ {ts rest : List Token}, EndsLine rest fault → (∀ t ∈ ts, t.kind ≠ .newline) →
      (ts ++ rest).takeWhile (fun t => t.kind ≠ .newline) = ts := by
    intro ts rest hrest hts
    rw [List.takeWhile_append_of_pos fun t ht => decide_eq_true (hts t ht)]
    rcases hrest with ⟨rfl, -⟩ | ⟨t, later, rfl, ht⟩
    · simp
    · simp [ht]
  rw [← hline hrest hts, h, hline hmore hus]

/-! ## What comes of reading a feed -/

namespace Parse

variable {room : Nat}

theorem accepts_of_ok {feed after : Feed} {l : Line}
    (h : Reader.line (feed.remaining.length + 1) room feed = .ok l after)
    (hquiet : feed.Quietly after) (hfeed : feed.diagnostics = []) :
    (ofFeed room feed).Accepts l := by
  have hofFeed : ofFeed room feed = ⟨some l, after.readings⟩ := by
    unfold ofFeed
    exact congrArg ofResult h
  rw [hofFeed]
  exact ⟨rfl, hquiet.diagnostics.trans hfeed⟩

theorem tooDeep_mem_of_error {feed after : Feed}
    (h : Reader.line (feed.remaining.length + 1) room feed = .error .tooDeep after) :
    .parse .tooDeep ∈ (ofFeed room feed).diagnostics := by
  have hofFeed : ofFeed room feed = ofResult (.error .tooDeep after) := by
    unfold ofFeed
    exact congrArg ofResult h
  rw [hofFeed, diagnostics_ofResult_tooDeep]
  exact List.mem_append_right _ (List.mem_singleton_self _)

theorem Accepts.exists_ok {feed : Feed} {l : Line} (h : (ofFeed room feed).Accepts l) :
    ∃ after, Reader.line (feed.remaining.length + 1) room feed = .ok l after ∧
      after.diagnostics = [] := by
  obtain ⟨hline, hnone⟩ := h
  unfold ofFeed at hline hnone
  rcases hread : Reader.line (feed.remaining.length + 1) room feed with
    ⟨l', after⟩ | ⟨refusal, after⟩
  · rw [show feed.tokens.toList = feed.remaining from rfl, hread] at hline hnone
    cases hline
    exact ⟨after, rfl, hnone⟩
  · rw [show feed.tokens.toList = feed.remaining from rfl, hread] at hline
    cases refusal with
    | unparsable => cases hline
    | tooDeep => cases hline

end Parse

/-! ## The language -/

/-- A line that is accepted is what the tokens of the first line say. -/
theorem Parse.Accepts.wholeLine {text : String} {l : Line} (h : (parse text).Accepts l) :
    scanFaults (firstLine text) = [] ∧ WholeLine (tokenize (firstLine text)) l := by
  obtain ⟨after, hread, hnone⟩ := h.exists_ok
  obtain ⟨ts, rest, hfeed, hline, hends⟩ := Reader.line_sound hread hnone
  by_cases hfaults : scanFaults (firstLine text) = []
  · -- the line was read to its first end, and so were the tokens of the first line
    obtain ⟨more, htokens, hends'⟩ := Feed.exists_endsLine_ofText hfaults
    have hts : ts = tokenize (firstLine text) :=
      hends.eq_of_append_eq hends' hline.newline_notMem (Feed.newline_notMem_tokenize hfaults)
        (hfeed.symm.trans htokens)
    exact ⟨hfaults, hts ▸ hline⟩
  · exact absurd hends (Feed.not_endsLine_ofText hfaults hfeed)

/-- What the tokens of a first line say is accepted of every text that begins with it,
or there is too little room for it in every one. -/
theorem Grammar.WholeLine.accepts {first : String} {l : Line}
    (h : WholeLine (tokenize first) l) (hfaults : scanFaults first = []) :
    (∀ text, firstLine text = first → (parse text).Accepts l) ∨
      ∀ text, firstLine text = first → .parse .tooDeep ∈ (parse text).diagnostics := by
  obtain ⟨depth, hdepth⟩ := h.yields_line
  have hyields : ∀ text, firstLine text = first → ∃ rest,
      Reader.Yields (Reader.line ((Feed.ofText text).remaining.length + 1) Parse.room)
        (Feed.ofText text) (depth ≤ Parse.room) l rest := by
    rintro text rfl
    obtain ⟨rest, hfeed, hends⟩ := Feed.exists_endsLine_ofText hfaults
    exact ⟨_, hdepth _ _ (Feed.ofText text) rest hfeed hends rfl (Nat.lt_succ_self _)⟩
  by_cases hroom : depth ≤ Parse.room
  · left
    intro text htext
    obtain ⟨rest, hread⟩ := hyields text htext
    obtain ⟨after, hok, hquiet, -⟩ := hread.ok hroom
    exact Parse.accepts_of_ok hok hquiet rfl
  · right
    intro text htext
    obtain ⟨rest, hread⟩ := hyields text htext
    obtain ⟨after, herror, -⟩ := hread.tooDeep hroom
    exact Parse.tooDeep_mem_of_error herror

/-- **The lines accepted are those of the grammar.**  Unless the room for nesting runs
out, a text is accepted as a line exactly if its first line has no fault and its tokens
are that line; and then every other text with the same first line is accepted as the
same. -/
theorem parse_accepts_iff (text : String)
    (hroom : .parse .tooDeep ∉ (parse text).diagnostics) (l : Line) :
    ((parse text).Accepts l ↔
        scanFaults (firstLine text) = [] ∧ WholeLine (tokenize (firstLine text)) l) ∧
      ((parse text).Accepts l →
        ∀ other, firstLine other = firstLine text → (parse other).Accepts l) := by
  have hboth : scanFaults (firstLine text) = [] → WholeLine (tokenize (firstLine text)) l →
      ∀ other, firstLine other = firstLine text → (parse other).Accepts l := by
    intro hfaults hline
    rcases hline.accepts hfaults with haccepts | hdeep
    · exact haccepts
    · exact absurd (hdeep text rfl) hroom
  refine ⟨⟨fun h => h.wholeLine, fun h => hboth h.1 h.2 text rfl⟩, fun h => ?_⟩
  exact hboth h.wholeLine.1 h.wholeLine.2

/-- A target may stand in brackets, and what stands behind the line does not matter. -/
theorem parse_accepts_bracketed_target :
    (parse "(x) = y\n)").Accepts (.expression (.assign "x" (.var "y"))) ∧
      (parse "(x) = y").Accepts (.expression (.assign "x" (.var "y"))) := by
  have hroom : .parse .tooDeep ∉ (parse "(x) = y\n)").diagnostics := by decide +kernel
  have htokens : tokenize (firstLine "(x) = y\n)") =
      [⟨.openBracket, "(", .bare, ⟨1, 1⟩, 1⟩, ⟨.identifier, "x", .bare, ⟨1, 2⟩, 1⟩,
        ⟨.closeBracket, ")", .bare, ⟨1, 3⟩, 1⟩, ⟨.equals, "=", .bare, ⟨1, 5⟩, 1⟩,
        ⟨.identifier, "y", .bare, ⟨1, 7⟩, 1⟩] := by decide +kernel
  have hline : WholeLine (tokenize (firstLine "(x) = y\n)"))
      (.expression (.assign "x" (.var "y"))) := by
    rw [htokens]
    have hx : Expression [⟨.identifier, "x", .bare, ⟨1, 2⟩, 1⟩] (.var "x") :=
      .operation (.of_primary (.name rfl) 0)
    have hy : Expression [⟨.identifier, "y", .bare, ⟨1, 7⟩, 1⟩] (.var "y") :=
      .operation (.of_primary (.name rfl) 0)
    have htarget : Operation 0 [⟨.openBracket, "(", .bare, ⟨1, 1⟩, 1⟩,
        ⟨.identifier, "x", .bare, ⟨1, 2⟩, 1⟩, ⟨.closeBracket, ")", .bare, ⟨1, 3⟩, 1⟩]
        (.var "x") := .of_primary (.bracketed rfl hx rfl) 0
    exact .expression (.assign htarget rfl hy) (by simp)
  have hiff := parse_accepts_iff "(x) = y\n)" hroom (.expression (.assign "x" (.var "y")))
  have haccepts := hiff.1.2 ⟨by decide +kernel, hline⟩
  exact ⟨haccepts, hiff.2 haccepts "(x) = y" (by decide +kernel)⟩

/-- **The grammar is unambiguous.**  Some tokens are one line at most. -/
theorem Grammar.WholeLine.unique {ts : List Token} {l l' : Line} (h : WholeLine ts l)
    (h' : WholeLine ts l') : l = l' := by
  obtain ⟨depth, hdepth⟩ := h.yields_line
  obtain ⟨depth', hdepth'⟩ := h'.yields_line
  have hfeed : (Feed.ofTokens ts none).remaining = ts ++ [] := (List.append_nil ts).symm
  have hread := hdepth _ (max depth depth') _ [] hfeed (Or.inl ⟨rfl, rfl⟩) rfl
    (Nat.lt_succ_self _)
  have hread' := hdepth' _ (max depth depth') _ [] hfeed (Or.inl ⟨rfl, rfl⟩) rfl
    (Nat.lt_succ_self _)
  obtain ⟨after, hok, -, -⟩ := hread.ok (Nat.le_max_left depth depth')
  obtain ⟨after', hok', -, -⟩ := hread'.ok (Nat.le_max_right depth depth')
  rw [hok] at hok'
  cases hok'
  rfl

end LineCalculator
