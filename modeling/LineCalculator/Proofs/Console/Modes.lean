import LineCalculator.Proofs.Console.Abort
import LineCalculator.Proofs.Reading.LessRoom
import LineCalculator.Proofs.Reading.Tolerance

/-!
# Both modes of the program

Lines can be given to the program as arguments, or be typed one after the other in a session.
The two take the same turns.  What is printed of a turn differs only in what stands around it: a
session prints the prompt before every line, and the text for results before every value.

They differ in which lines get a turn.  A session passes over lines of blanks, and it ends at
a request to leave; the arguments have a turn each.  Neither can be told from what is printed of
the turns that are taken.  A line of blanks is no line, so that its turn prints nothing and
changes nothing (`Turn.take_of_blank`), and no more does a request to leave
(`Turn.take_of_leave`), which only matters for what comes after it.

## How the comparison goes

The turns for the arguments are a list (`Program.turnsOf`), and a session has the part of it
before the first request to leave (`Program.beforeLeaving`).  One step of a session is one
turn of that list (`Program.runLines_cons_of_goesOn` and its siblings), and by induction along
the lines a session prints what these turns print, with what stands around them
(`Program.runLines_eq`, and `Program.runExpressions_eq` for the arguments).  Both are about any
scope to start from, since that is what the induction needs; the scope that both modes begin
with is put in at the end, in `Program.modes_agree`.
-/

namespace LineCalculator

/-! ## Turns that leave everything as it is -/

/-- Whether a result is a value. -/
def TurnResult.isValue : TurnResult → Bool
  | value _ => true
  | _ => false

/-- The text before a value is printed before a value and before nothing else. -/
theorem TurnResult.printed_eq (lead : String) (r : TurnResult) :
    r.printed lead = (if r.isValue then lead else "") ++ r.printed "" := by
  cases r <;> simp [printed, isValue, String.append_assoc]

/-- Whether a line is a request to leave. -/
def Program.asksToLeave (line : String) : Bool := (parse line).line? matches some .exit

theorem Program.asksToLeave_iff (line : String) :
    asksToLeave line = true ↔ (parse line).line? = some .exit := by
  unfold asksToLeave
  cases (parse line).line? with
  | none => simp
  | some l => cases l <;> simp

/-- What a run comes to is no request to leave. -/
theorem TurnResult.ofOutcome_ne_leave {α : Type} {result : α → TurnResult}
    (hresult : ∀ a, result a ≠ .leave) (outcome : Except Failure α) :
    ofOutcome result outcome ≠ .leave := by
  cases outcome with
  | ok a => exact hresult a
  | error f => cases f <;> simp [ofOutcome]

namespace LogLevel

/-- Writing tokens takes room, and leaves no more for reading than there is. -/
theorem readingRoom_le (threshold : LogLevel) : threshold.readingRoom ≤ Parse.room := by
  unfold readingRoom
  split
  · exact Nat.sub_le _ _
  · exact Nat.le_refl _

end LogLevel

namespace Turn

variable (threshold : LogLevel)

/-- A line of blanks has a turn that comes to nothing. -/
theorem take_of_blank (s : Scope) {line : String} (hblank : Program.isBlankLine line = true)
    (hline : '\n' ∉ line.toList) :
    (take threshold s line).result = .silent ∧ (take threshold s line).scope = s := by
  have hskipped : ∀ c ∈ line.toList, Head.isSkipped c = true := fun c hc => by
    have hc' : c ≠ '\n' := fun h => hline (h ▸ hc)
    rw [Head.isSkipped, List.all_eq_true.1 hblank c hc, Bool.and_true, bne_iff_ne]
    exact hc'
  have hnone := line?_eq_none_of_le threshold.readingRoom_le
    (Parse.line?_eq_none_of_blank hskipped)
  simp [take, hnone]

/-- The turns that leave are those of requests to leave, whatever the scope and the
threshold. -/
theorem result_eq_leave_iff (s : Scope) (text : String) :
    (take threshold s text).result = .leave ↔ Program.asksToLeave text = true := by
  rw [Program.asksToLeave_iff, line?_eq_exit_iff text Parse.room threshold.readingRoom]
  simp only [take]
  cases hline : (parse text threshold.readingRoom).line? with
  | none => simp
  | some l =>
    cases l with
    | exit => simp
    | delete name =>
      have hsilent : ∀ u : Unit, (fun _ => TurnResult.silent) u ≠ .leave := by simp
      simpa using TurnResult.ofOutcome_ne_leave hsilent (s.runDelete name).outcome
    | expression e =>
      have hvalue : ∀ v, TurnResult.value v ≠ .leave := by simp
      simpa using TurnResult.ofOutcome_ne_leave hvalue (s.run e threshold.accountCost).outcome

/-- A request to leave changes nothing. -/
theorem take_of_leave (s : Scope) {text : String} (h : Program.asksToLeave text = true) :
    (take threshold s text).result = .leave ∧ (take threshold s text).scope = s := by
  have hline := (line?_eq_exit_iff text _ threshold.readingRoom).1
    ((Program.asksToLeave_iff text).1 h)
  simp [take, hline]

end Turn

namespace Program

/-! ## The turns of the arguments -/

/-- The turns for some lines as arguments. -/
def turnsOf (settings : Settings) (lines : List String) : List (Scope × String) :=
  expressionTurns settings.threshold Session.initial lines

/-- The result of a turn. -/
def resultOf (settings : Settings) (turn : Scope × String) : TurnResult :=
  (Turn.take settings.threshold turn.1 turn.2).result

/-- What is printed of a turn for an argument. -/
def printedOf (settings : Settings) (turn : Scope × String) : String :=
  (resultOf settings turn).printed ""

/-- What is printed of a turn in a session, with the prompt for its line. -/
def shownOf (settings : Settings) (turn : Scope × String) : String :=
  settings.prompt ++ ((if (resultOf settings turn).isValue then settings.resultLead else "") ++
    printedOf settings turn)

/-- The turns before the first request to leave. -/
def beforeLeaving (turns : List (Scope × String)) : List (Scope × String) :=
  turns.takeWhile fun turn => !asksToLeave turn.2

theorem beforeLeaving_cons_of_stays (s : Scope) {text : String} (turns : List (Scope × String))
    (h : asksToLeave text = false) :
    beforeLeaving ((s, text) :: turns) = (s, text) :: beforeLeaving turns :=
  List.takeWhile_cons_of_pos (by simp [h])

theorem beforeLeaving_cons_of_leaves (s : Scope) {text : String} (turns : List (Scope × String))
    (h : asksToLeave text = true) : beforeLeaving ((s, text) :: turns) = [] :=
  List.takeWhile_cons_of_neg (by simp [h])

theorem shownOf_eq (settings : Settings) (turn : Scope × String) : shownOf settings turn =
    settings.prompt ++ (resultOf settings turn).printed settings.resultLead := by
  rw [shownOf, printedOf, ← TurnResult.printed_eq]

section Threshold

variable {threshold : LogLevel}

/-- A request to leave is not aborted. -/
theorem asksToLeave_of_aborted {s : Scope} {text : String} (h : IsAborted threshold (s, text)) :
    asksToLeave text = false := by
  have h : (Turn.take threshold s text).result = .aborted := h
  cases hleave : asksToLeave text with
  | false => rfl
  | true =>
    rw [(Turn.take_of_leave threshold s hleave).1] at h
    cases h

theorem expressionTurns_cons_of_aborted {s : Scope} {text : String} (rest : List String)
    (h : IsAborted threshold (s, text)) :
    expressionTurns threshold s (text :: rest) = [(s, text)] := by
  have h : (Turn.take threshold s text).result = .aborted := h
  simp only [expressionTurns, h, if_true]

theorem expressionTurns_cons {s : Scope} {text : String} (rest : List String)
    (h : ¬ IsAborted threshold (s, text)) : expressionTurns threshold s (text :: rest) =
      (s, text) :: expressionTurns threshold (Turn.take threshold s text).scope rest := by
  have h : ¬ (Turn.take threshold s text).result = .aborted := h
  simp only [expressionTurns, h, if_false]

/-- The turns for the first of some arguments are the first turns. -/
theorem expressionTurns_take (n : Nat) (s : Scope) (texts : List String) :
    expressionTurns threshold s (texts.take n) = (expressionTurns threshold s texts).take n := by
  induction texts generalizing n s with
  | nil => simp [expressionTurns]
  | cons text rest ih =>
    cases n with
    | zero => rfl
    | succ n =>
      rw [List.take_succ_cons]
      by_cases h : IsAborted threshold (s, text)
      · rw [expressionTurns_cons_of_aborted _ h, expressionTurns_cons_of_aborted _ h]
        simp
      · rw [expressionTurns_cons _ h, expressionTurns_cons _ h, ih, List.take_succ_cons]

/-- The arguments have their turns in their order, and if none of them is aborted every
argument has one. -/
theorem texts_expressionTurns (s : Scope) (texts : List String) :
    (expressionTurns threshold s texts).map (·.2) <+: texts ∧
      ((∀ turn ∈ expressionTurns threshold s texts, ¬ IsAborted threshold turn) →
        (expressionTurns threshold s texts).map (·.2) = texts) := by
  induction texts generalizing s with
  | nil => exact ⟨List.nil_prefix, fun _ => rfl⟩
  | cons text rest ih =>
    by_cases h : IsAborted threshold (s, text)
    · rw [expressionTurns_cons_of_aborted rest h]
      exact ⟨⟨rest, rfl⟩, fun hnone => absurd h (hnone _ List.mem_cons_self)⟩
    · obtain ⟨hbegins, hall⟩ := ih (Turn.take threshold s text).scope
      rw [expressionTurns_cons rest h, List.map_cons]
      refine ⟨(List.prefix_cons_inj text).2 hbegins, fun hnone => ?_⟩
      rw [hall fun turn hturn => hnone turn (List.mem_cons_of_mem _ hturn)]

/-- A turn that is aborted is the last one. -/
theorem beforeLeaving_eq_self {s : Scope} {texts : List String}
    (h : ∃ turn ∈ beforeLeaving (expressionTurns threshold s texts), IsAborted threshold turn) :
    beforeLeaving (expressionTurns threshold s texts) = expressionTurns threshold s texts := by
  induction texts generalizing s with
  | nil => rfl
  | cons text rest ih =>
    by_cases habort : IsAborted threshold (s, text)
    · rw [expressionTurns_cons_of_aborted rest habort]
      exact beforeLeaving_cons_of_stays s [] (asksToLeave_of_aborted habort)
    · rw [expressionTurns_cons rest habort] at h ⊢
      obtain ⟨turn, hturn, hturn'⟩ := h
      cases hleave : asksToLeave text with
      | true =>
        rw [beforeLeaving_cons_of_leaves _ _ hleave] at hturn
        exact absurd hturn List.not_mem_nil
      | false =>
        rw [beforeLeaving_cons_of_stays _ _ hleave] at hturn ⊢
        rcases List.mem_cons.1 hturn with rfl | hlater
        · exact absurd hturn' habort
        · rw [ih ⟨turn, hlater, hturn'⟩]

end Threshold

/-! ## How turns end -/

instance (threshold : LogLevel) (turn : Scope × String) : Decidable (IsAborted threshold turn) :=
  inferInstanceAs (Decidable (_ = TurnResult.aborted))

/-- How the program ends when it takes some turns. -/
def endingOf (settings : Settings) (turns : List (Scope × String)) : Ending :=
  if ∃ turn ∈ turns, IsAborted settings.threshold turn then .aborted else .exit 0

/-- What a session prints behind the turns that it takes: the prompt once more, and a newline
unless the lines hold a request to leave; but nothing if a turn is aborted. -/
def closing (settings : Settings) (lines : List String) (turns : List (Scope × String)) :
    String :=
  if ∃ turn ∈ turns, IsAborted settings.threshold turn then ""
  else settings.prompt ++ if lines.any asksToLeave then "" else "\n"

section Endings

variable {settings : Settings} {turn : Scope × String}

theorem exists_aborted_cons (turns : List (Scope × String))
    (h : ¬ IsAborted settings.threshold turn) :
    (∃ t ∈ turn :: turns, IsAborted settings.threshold t) ↔
      ∃ t ∈ turns, IsAborted settings.threshold t := by
  simp only [List.mem_cons, exists_eq_or_imp, h, false_or]

theorem endingOf_singleton (h : IsAborted settings.threshold turn) :
    endingOf settings [turn] = .aborted :=
  if_pos ⟨turn, List.mem_cons_self, h⟩

theorem endingOf_cons (turns : List (Scope × String)) (h : ¬ IsAborted settings.threshold turn) :
    endingOf settings (turn :: turns) = endingOf settings turns :=
  if_congr (exists_aborted_cons turns h) rfl rfl

theorem closing_singleton (lines : List String) (h : IsAborted settings.threshold turn) :
    closing settings lines [turn] = "" :=
  if_pos ⟨turn, List.mem_cons_self, h⟩

theorem closing_cons {line : String} (lines : List String) (turns : List (Scope × String))
    (hleave : asksToLeave line = false) (h : ¬ IsAborted settings.threshold turn) :
    closing settings (line :: lines) (turn :: turns) = closing settings lines turns := by
  unfold closing
  rw [List.any_cons, hleave, Bool.false_or]
  exact if_congr (exists_aborted_cons turns h) rfl rfl

end Endings

/-! ## What the mode with arguments prints -/

/-- What a turn adds to what has been printed. -/
theorem out_record (shown : Transcript) (threshold : LogLevel) (lead : String) (turn : Turn) :
    (shown.record threshold lead turn).out = shown.out ++ turn.result.printed lead := rfl

/-- The arguments print their turns. -/
theorem runExpressions_eq (settings : Settings) (s : Scope) (shown : Transcript)
    (texts : List String) :
    (runExpressions settings s shown texts).ending =
        endingOf settings (expressionTurns settings.threshold s texts) ∧
      (runExpressions settings s shown texts).transcript.out = shown.out ++
        String.join ((expressionTurns settings.threshold s texts).map
          (printedOf settings)) := by
  induction texts generalizing s shown with
  | nil => exact ⟨rfl, String.append_empty.symm⟩
  | cons text rest ih =>
    by_cases habort : IsAborted settings.threshold (s, text)
    · have hresult : (Turn.take settings.threshold s text).result = .aborted := habort
      rw [expressionTurns_cons_of_aborted rest habort, endingOf_singleton habort,
        List.map_singleton, String.join_cons]
      simp only [runExpressions, hresult, if_true, true_and]
      rw [out_record]
      exact congrArg (shown.out ++ ·) String.append_empty.symm
    · have hresult : ¬ (Turn.take settings.threshold s text).result = .aborted := habort
      obtain ⟨hending, hout⟩ := ih (Turn.take settings.threshold s text).scope
        (shown.record settings.threshold "" (Turn.take settings.threshold s text))
      rw [expressionTurns_cons rest habort, endingOf_cons _ habort, List.map_cons,
        String.join_cons]
      simp only [runExpressions, hresult, if_false]
      refine ⟨hending, ?_⟩
      rw [hout, out_record, String.append_assoc]
      rfl

/-! ## What a session prints -/

section Session

variable {settings : Settings} {s : Scope} {shown : Transcript} {line : String}
  (rest : List String)

/-- A session goes on behind a line that does not end it. -/
theorem runLines_cons_of_goesOn (hline : '\n' ∉ line.toList)
    (hleave : asksToLeave line = false) (habort : ¬ IsAborted settings.threshold (s, line)) :
    ∃ shown' : Transcript, shown'.out = shown.out ++ shownOf settings (s, line) ∧
      runLines settings s shown (line :: rest) =
        runLines settings (Turn.take settings.threshold s line).scope shown' rest := by
  rw [shownOf_eq]
  by_cases hblank : isBlankLine line = true
  · -- the session passes over the line, and the turn that it does not take comes to nothing
    obtain ⟨hresult, hscope⟩ := Turn.take_of_blank settings.threshold s hblank hline
    refine ⟨shown.print settings.prompt, ?_, ?_⟩
    · rw [resultOf, hresult]
      exact congrArg (shown.out ++ ·) (String.append_empty).symm
    · rw [hscope]
      simp only [runLines, hblank, if_true]
  · refine ⟨(shown.print settings.prompt).record settings.threshold settings.resultLead
      (Turn.take settings.threshold s line), ?_, ?_⟩
    · rw [out_record, ← String.append_assoc]
      rfl
    · have hleave : (Turn.take settings.threshold s line).result ≠ .leave := fun h => by
        rw [(Turn.result_eq_leave_iff settings.threshold s line).1 h] at hleave
        cases hleave
      have habort : (Turn.take settings.threshold s line).result ≠ .aborted := habort
      simp only [runLines, hblank]
      cases hresult : (Turn.take settings.threshold s line).result with
      | leave => exact absurd hresult hleave
      | aborted => exact absurd hresult habort
      | _ => rfl

/-- A session ends at a request to leave. -/
theorem runLines_cons_of_leave (hline : '\n' ∉ line.toList)
    (hleave : asksToLeave line = true) :
    (runLines settings s shown (line :: rest)).ending = .exit 0 ∧
      (runLines settings s shown (line :: rest)).transcript.out =
        shown.out ++ settings.prompt := by
  have hleave := (Turn.take_of_leave settings.threshold s hleave).1
  have hblank : ¬ isBlankLine line = true := fun hblank => by
    rw [(Turn.take_of_blank settings.threshold s hblank hline).1] at hleave
    cases hleave
  simp only [runLines, hblank, hleave]
  refine ⟨rfl, ?_⟩
  show (shown.out ++ settings.prompt) ++ (Turn.take settings.threshold s line).result.printed _ = _
  rw [hleave]
  exact String.append_empty

/-- A session ends at a turn that is aborted. -/
theorem runLines_cons_of_aborted (hline : '\n' ∉ line.toList)
    (habort : IsAborted settings.threshold (s, line)) :
    (runLines settings s shown (line :: rest)).ending = .aborted ∧
      (runLines settings s shown (line :: rest)).transcript.out =
        shown.out ++ shownOf settings (s, line) := by
  have habort : (Turn.take settings.threshold s line).result = .aborted := habort
  have hblank : ¬ isBlankLine line = true := fun hblank => by
    rw [(Turn.take_of_blank settings.threshold s hblank hline).1] at habort
    cases habort
  rw [shownOf_eq, resultOf]
  simp only [runLines, hblank, habort]
  refine ⟨rfl, ?_⟩
  show (shown.out ++ settings.prompt) ++ (Turn.take settings.threshold s line).result.printed _ = _
  rw [habort, String.append_assoc]

end Session

/-- A session prints the turns before the first request to leave, each with the prompt and with
the text for results before a value. -/
theorem runLines_eq (settings : Settings) (s : Scope) (shown : Transcript) {lines : List String}
    (hlines : ∀ line ∈ lines, '\n' ∉ line.toList) :
    (runLines settings s shown lines).ending = endingOf settings
        (beforeLeaving (expressionTurns settings.threshold s lines)) ∧
      (runLines settings s shown lines).transcript.out = shown.out ++
        (String.join ((beforeLeaving (expressionTurns settings.threshold s lines)).map
            (shownOf settings)) ++
          closing settings lines
            (beforeLeaving (expressionTurns settings.threshold s lines))) := by
  induction lines generalizing s shown with
  | nil => exact ⟨rfl, String.append_assoc.trans (by rw [expressionTurns]; rfl)⟩
  | cons line rest ih =>
    obtain ⟨hline, hrest⟩ := List.forall_mem_cons.1 hlines
    -- the first line is aborted, leaves, or lets the session go on with what is printed so far
    by_cases habort : IsAborted settings.threshold (s, line)
    · have hstays := asksToLeave_of_aborted habort
      rw [expressionTurns_cons_of_aborted rest habort, beforeLeaving_cons_of_stays s [] hstays]
      obtain ⟨hending, hout⟩ := runLines_cons_of_aborted rest hline habort
      refine ⟨hending.trans (endingOf_singleton habort).symm, hout.trans ?_⟩
      show _ = shown.out ++ (String.join [shownOf settings (s, line)] ++ closing _ _ [(s, line)])
      rw [closing_singleton _ habort]
      simp
    · rw [expressionTurns_cons rest habort]
      cases hleave : asksToLeave line with
      | true =>
        rw [beforeLeaving_cons_of_leaves _ _ hleave]
        obtain ⟨hending, hout⟩ := runLines_cons_of_leave rest hline hleave
        refine ⟨hending, hout.trans ?_⟩
        simp [closing, hleave]
      | false =>
        obtain ⟨shown', hout', hrun⟩ := runLines_cons_of_goesOn rest hline hleave habort
        obtain ⟨hending, hout⟩ := ih (Turn.take settings.threshold s line).scope shown' hrest
        rw [beforeLeaving_cons_of_stays _ _ hleave, hrun, endingOf_cons _ habort,
          closing_cons rest _ hleave habort, List.map_cons, String.join_cons]
        refine ⟨hending, ?_⟩
        rw [hout, hout']
        simp only [String.append_assoc]

/-! ## The lines of an input -/

/-- The input in which some lines are typed. -/
def typed (lines : List String) : String := String.join (lines.map (· ++ "\n"))

theorem splitLines_append_newline (begun : List Char) {line : List Char} (rest : List Char)
    (hline : '\n' ∉ line) :
    splitLines begun (line ++ '\n' :: rest) = (begun.reverse ++ line) :: splitLines [] rest := by
  induction line generalizing begun with
  | nil => simp [splitLines]
  | cons c line ih =>
    obtain ⟨hc, hline⟩ := not_or.1 (List.mem_cons.not.1 hline)
    have hcons : splitLines begun (c :: (line ++ '\n' :: rest)) =
        splitLines (c :: begun) (line ++ '\n' :: rest) := splitLines.eq_3 _ _ _ (Ne.symm hc)
    rw [List.cons_append, hcons, ih (c :: begun) hline]
    simp

/-- The lines of an input are those that are typed in it. -/
theorem linesOf_typed {lines : List String} (hlines : ∀ line ∈ lines, '\n' ∉ line.toList) :
    linesOf (typed lines) = lines := by
  induction lines with
  | nil => rfl
  | cons line rest ih =>
    obtain ⟨hline, hrest⟩ := List.forall_mem_cons.1 hlines
    have htext : (typed (line :: rest)).toList = line.toList ++ '\n' :: (typed rest).toList := by
      simp [typed]
    have hih : (splitLines [] (typed rest).toList).map String.ofList = rest := ih hrest
    rw [linesOf, htext, splitLines_append_newline [] _ hline, List.map_cons, hih]
    simp

/-! ## Both modes -/

/-- Lines are arguments when they stand behind two minus signs. -/
theorem ofList_cons_dashes (lines : List String) :
    Arguments.ofList ("--" :: lines) = .expressions lines := rfl

section Both

variable {environment : Environment} {settings : Settings}
  (hsettings : Settings.ofEnvironment environment = .ok settings) {lines : List String}
include hsettings

/-- The program with some lines as arguments. -/
theorem run_given (hne : lines ≠ []) (input : String) :
    (run environment ("--" :: lines) input).ending = endingOf settings (turnsOf settings lines) ∧
      (run environment ("--" :: lines) input).transcript.out =
        String.join ((turnsOf settings lines).map (printedOf settings)) := by
  have hrun : run environment ("--" :: lines) input =
      runExpressions settings Session.initial Transcript.empty lines := by
    cases lines with
    | nil => exact absurd rfl hne
    | cons line rest =>
      unfold run
      rw [hsettings, ofList_cons_dashes]
      rfl
  obtain ⟨hending, hout⟩ := runExpressions_eq settings Session.initial Transcript.empty lines
  rw [hrun]
  exact ⟨hending, hout.trans String.empty_append⟩

/-- The program with some lines typed. -/
theorem run_typed (hlines : ∀ line ∈ lines, '\n' ∉ line.toList) :
    (run environment [] (typed lines)).ending =
        endingOf settings (beforeLeaving (turnsOf settings lines)) ∧
      (run environment [] (typed lines)).transcript.out =
        String.join ((beforeLeaving (turnsOf settings lines)).map (shownOf settings)) ++
          closing settings lines (beforeLeaving (turnsOf settings lines)) := by
  have hrun : run environment [] (typed lines) = runLines settings Session.initial
      (Transcript.empty.log settings.threshold [.started]) lines := by
    unfold run
    rw [hsettings]
    show runLines settings Session.initial _ (linesOf (typed lines)) = _
    rw [linesOf_typed hlines]
  obtain ⟨hending, hout⟩ := runLines_eq settings Session.initial
    (Transcript.empty.log settings.threshold [.started]) hlines
  rw [hrun]
  exact ⟨hending, hout.trans String.empty_append⟩

end Both

/-- What the program does with lines as arguments, for any arguments, and what it does when they
are typed go together. -/
structure ModesAgree (settings : Settings) (lines : List String)
    (given : List String → Outcome) (session : Outcome) : Prop where
  /-- The arguments are taken in their order, each with one turn, -/
  texts : (turnsOf settings lines).map (·.2) <+: lines
  /-- and all of them unless a turn is aborted. -/
  all_texts : (∀ turn ∈ turnsOf settings lines, ¬ IsAborted settings.threshold turn) →
    (turnsOf settings lines).map (·.2) = lines
  given_ending : (given lines).ending = endingOf settings (turnsOf settings lines)
  /-- What the arguments add to what is printed, one after the other, is what is printed of the
  turns. -/
  given_out (n : Nat) : (given (lines.take (n + 1))).transcript.out =
    String.join (((turnsOf settings lines).take (n + 1)).map (printedOf settings))
  session_ending : session.ending = endingOf settings (beforeLeaving (turnsOf settings lines))
  /-- A session prints as much of each turn before the first request to leave, with the prompt
  before it and the text for results before a value. -/
  session_out : session.transcript.out =
    String.join ((beforeLeaving (turnsOf settings lines)).map (shownOf settings)) ++
      closing settings lines (beforeLeaving (turnsOf settings lines))
  /-- A turn before any request to leave that is aborted is the last one in both modes. -/
  aborted :
    (∃ turn ∈ beforeLeaving (turnsOf settings lines), IsAborted settings.threshold turn) →
      beforeLeaving (turnsOf settings lines) = turnsOf settings lines
  /-- Lines of blanks print nothing as arguments. -/
  blank : ∀ turn ∈ turnsOf settings lines, isBlankLine turn.2 = true →
    printedOf settings turn = "" ∧ (Turn.take settings.threshold turn.1 turn.2).scope = turn.1
  /-- Requests to leave print nothing as arguments, and the variables are as they were. -/
  leave : ∀ turn ∈ turnsOf settings lines, asksToLeave turn.2 = true →
    printedOf settings turn = "" ∧ (Turn.take settings.threshold turn.1 turn.2).scope = turn.1

/-- **The two modes agree.**  Take some lines, at least one, without newlines.  With the lines as
arguments the program takes a turn for each of them, until one is aborted, and prints what comes
of the turns.  With the lines typed, it prints the same for every line before the first request to
leave, with the prompt in front, and with the text for results in front of a value but not of an
error; the prompt once more; and a newline unless it was asked to leave.  If a turn before that
is aborted, both end there.  Lines of blanks and requests to leave have turns as arguments
that print nothing and keep the variables. -/
theorem modes_agree {environment : Environment} {settings : Settings}
    (hsettings : Settings.ofEnvironment environment = .ok settings) {lines : List String}
    (hne : lines ≠ []) (hlines : ∀ line ∈ lines, '\n' ∉ line.toList) (unread : String) :
    ModesAgree settings lines (fun arguments => run environment ("--" :: arguments) unread)
      (run environment [] (typed lines)) := by
  obtain ⟨hbegins, hall⟩ := texts_expressionTurns Session.initial lines
  obtain ⟨hending, hout⟩ := run_typed hsettings hlines
  refine ⟨hbegins, hall, (run_given hsettings hne unread).1, fun n => ?_, hending, hout,
    beforeLeaving_eq_self, fun turn hturn hblank => ?_, fun turn _ hleave => ?_⟩
  · have htake : lines.take (n + 1) ≠ [] := by simpa using hne
    refine (run_given hsettings htake unread).2.trans ?_
    rw [turnsOf, expressionTurns_take]
    rfl
  · have hline : '\n' ∉ turn.2.toList := hlines _ (hbegins.subset (List.mem_map_of_mem hturn))
    obtain ⟨hresult, hscope⟩ := Turn.take_of_blank _ turn.1 hblank hline
    refine ⟨?_, hscope⟩
    rw [printedOf, resultOf, hresult]
    rfl
  · obtain ⟨hresult, hscope⟩ := Turn.take_of_leave _ turn.1 hleave
    refine ⟨?_, hscope⟩
    rw [printedOf, resultOf, hresult]
    rfl

/-- Five lines with a value, a line of blanks, an error and a request to leave. -/
theorem modes_agree_five_lines :
    ModesAgree ⟨.warning, "> ", "  "⟩ ["a = 2", " ", "1 / 0", "exit", "a"]
      (fun arguments => run ⟨none, none, none⟩ ("--" :: arguments) "")
      (run ⟨none, none, none⟩ [] (typed ["a = 2", " ", "1 / 0", "exit", "a"])) :=
  modes_agree rfl (by decide) (by decide) ""

end Program

end LineCalculator
