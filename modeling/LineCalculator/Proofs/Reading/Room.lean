import LineCalculator.Proofs.Reading.Silence

/-!
# Reading with and without room

How a reader takes given tokens for a given phrase.  There are two ways, and which of
them it is depends on the room alone: with enough room the reader yields the phrase
and reports nothing, and without it refuses for want of it.

## The judgement

`Reads reader supply enough ts a Follow` says how `reader` takes the tokens `ts`
before others that are as `Follow` asks.  If `enough` holds it yields `a` and leaves
the others, and if not it refuses for want of room.  `supply` bounds the tokens, as
it bounds the loops of readers.

What is enough for two readers one after the other is enough for each
(`Reads.bind`): the second is not asked before the first has had enough.  That there
is no third way is what tells a phrase that is too deep from one that is wrong.
-/

namespace LineCalculator

namespace Reader

variable {α β : Type}

/-- With enough room a reader yields `a` without a report and leaves `rest` to come,
and without it refuses for want of it, without a report as well. -/
structure Yields (reader : Reader α) (feed : Feed) (enough : Prop) (a : α)
    (rest : List Token) : Prop where
  ok : enough → ∃ after, reader feed = .ok a after ∧ feed.Quietly after ∧ after.remaining = rest
  tooDeep : ¬ enough → ∃ after, reader feed = .error .tooDeep after ∧ feed.Quietly after

/-- A reader takes the tokens `ts` for `a`, with enough room, wherever they stand
before tokens that may follow. -/
def Reads (reader : Reader α) (supply : Nat) (enough : Prop) (ts : List Token) (a : α)
    (Follow : List Token → Prop) : Prop :=
  ∀ feed rest, feed.remaining = ts ++ rest → (rest = [] → feed.fault = none) → Follow rest →
    feed.remaining.length < supply → Yields reader feed enough a rest

/-! ## Rules -/

namespace Yields

variable {feed : Feed} {p q : Prop} {a : α} {b : β} {mid rest : List Token}

theorem of_ok {reader : Reader α} {after : Feed} (h : reader feed = .ok a after)
    (hquiet : feed.Quietly after) (hrest : after.remaining = rest) :
    Yields reader feed True a rest where
  ok _ := ⟨after, h, hquiet, hrest⟩
  tooDeep hfalse := absurd trivial hfalse

theorem congr {reader : Reader α} (h : Yields reader feed p a rest) (hiff : q ↔ p) :
    Yields reader feed q a rest where
  ok hq := h.ok (hiff.1 hq)
  tooDeep hq := h.tooDeep fun hp => hq (hiff.2 hp)

theorem bind {reader : Reader α} {next : α → Reader β} (h : Yields reader feed p a mid)
    (hnext : ∀ after, feed.Quietly after → after.remaining = mid →
      Yields (next a) after q b rest) :
    Yields (reader >>= next) feed (p ∧ q) b rest where
  ok hroom := by
    obtain ⟨after, hread, hquiet, hmid⟩ := h.ok hroom.1
    obtain ⟨after', hgo, hquiet', hrest⟩ := (hnext after hquiet hmid).ok hroom.2
    exact ⟨after', (bind_of_ok hread).trans hgo, hquiet.trans hquiet', hrest⟩
  tooDeep hroom := by
    by_cases hp : p
    · obtain ⟨after, hread, hquiet, hmid⟩ := h.ok hp
      obtain ⟨after', hgo, hquiet'⟩ :=
        (hnext after hquiet hmid).tooDeep fun hq => hroom ⟨hp, hq⟩
      exact ⟨after', (bind_of_ok hread).trans hgo, hquiet.trans hquiet'⟩
    · obtain ⟨after, hread, hquiet⟩ := h.tooDeep hp
      exact ⟨after, bind_of_error hread, hquiet⟩

theorem bind_of_true {reader : Reader α} {next : α → Reader β}
    (h : Yields reader feed True a mid)
    (hnext : ∀ after, feed.Quietly after → after.remaining = mid →
      Yields (next a) after q b rest) :
    Yields (reader >>= next) feed q b rest :=
  (h.bind hnext).congr (by rw [true_and])

theorem draw {t : Token} (h : feed.remaining = t :: rest) :
    Yields Reader.draw feed True (some t) rest := by
  obtain ⟨after, hdraw, hquiet, hrest⟩ := draw_cons h
  exact of_ok hdraw hquiet hrest

theorem draw_nil (h : feed.remaining = []) (hfault : feed.fault = none) :
    Yields Reader.draw feed True none [] :=
  of_ok (draw_end h hfault) (.refl feed) h

theorem handBack_pure (t : Token) (feed : Feed) (b : β) :
    Yields (Reader.handBack t >>= fun _ => Pure.pure b) feed True b (t :: feed.remaining) :=
  of_ok rfl ⟨rfl, rfl, rfl⟩ rfl

/-- A token that is drawn and handed back is still to come. -/
theorem peek_bind {next : Option Token → Reader β} (again : Reader β) {t : Token}
    {more : List Token} (hfeed : feed.remaining = t :: more)
    (hback : next (some t) = (Reader.handBack t >>= fun _ => again))
    (hagain : ∀ after, feed.Quietly after → after.remaining = t :: more →
      Yields again after q b rest) :
    Yields (Reader.draw >>= next) feed q b rest := by
  refine (draw hfeed).bind_of_true fun after hquiet hafter => ?_
  obtain ⟨after', hdone, hquiet', hafter'⟩ := handBack_eq t after
  rw [hback]
  rw [hafter] at hafter'
  exact (of_ok hdone hquiet' hafter').bind_of_true fun after'' hquiet'' hafter'' =>
    hagain after'' (hquiet.trans hquiet'') hafter''

end Yields

namespace Reads

variable {supply : Nat} {p q : Prop} {ts us : List Token} {a : α} {b : β}
  {F G : List Token → Prop}

theorem congr {reader : Reader α} (h : Reads reader supply p ts a F) (hiff : q ↔ p) :
    Reads reader supply q ts a F := fun feed rest hfeed hend hrest hlength =>
  (h feed rest hfeed hend hrest hlength).congr hiff

theorem mono {reader : Reader α} {supply' : Nat} (h : Reads reader supply p ts a F)
    (hsupply : supply' ≤ supply) (hfollow : ∀ rest, G rest → F rest) :
    Reads reader supply' p ts a G := fun feed rest hfeed hend hrest hlength =>
  h feed rest hfeed hend (hfollow rest hrest) (Nat.lt_of_lt_of_le hlength hsupply)

theorem pure (a : α) : Reads (Pure.pure a) supply True [] a F :=
  fun feed _ hfeed _ _ _ => .of_ok rfl (.refl feed) hfeed

/-- No feed has less than no tokens. -/
theorem zero {reader : Reader α} : Reads reader 0 p ts a F := fun _ _ _ _ _ hlength =>
  absurd hlength (Nat.not_lt_zero _)

theorem overflow (hp : ¬ p) : Reads Reader.overflow supply p ts a F := fun feed _ _ _ _ _ =>
  ⟨fun h => absurd h hp, fun _ => ⟨feed, rfl, .refl feed⟩⟩

theorem bind {reader : Reader α} {next : α → Reader β} (h : Reads reader supply p ts a F)
    (hnext : Reads (next a) supply q us b G) (hfollow : ∀ rest, G rest → F (us ++ rest)) :
    Reads (reader >>= next) supply (p ∧ q) (ts ++ us) b G := by
  intro feed rest hfeed hend hrest hlength
  rw [List.append_assoc] at hfeed
  have hend' : us ++ rest = [] → feed.fault = none := fun hnil =>
    hend (List.append_eq_nil_iff.1 hnil).2
  refine (h feed (us ++ rest) hfeed hend' (hfollow rest hrest) hlength).bind ?_
  intro after hquiet hafter
  refine hnext after rest hafter (fun hnil => hquiet.fault.trans (hend hnil)) hrest ?_
  rw [hfeed, List.length_append] at hlength
  rw [hafter]
  omega

theorem bind_of_true {reader : Reader α} {next : α → Reader β}
    (h : Reads reader supply True ts a F) (hnext : Reads (next a) supply q us b G)
    (hfollow : ∀ rest, G rest → F (us ++ rest)) :
    Reads (reader >>= next) supply q (ts ++ us) b G :=
  (h.bind hnext hfollow).congr (by rw [true_and])

/-- What comes after a phrase may take no more tokens for it. -/
theorem bind_nil {reader : Reader α} {next : α → Reader β} (h : Reads reader supply p ts a F)
    (hnext : Reads (next a) supply True [] b G) (hfollow : ∀ rest, G rest → F rest) :
    Reads (reader >>= next) supply p ts b G := by
  have hboth := h.bind hnext hfollow
  rw [List.append_nil] at hboth
  exact hboth.congr (by rw [and_true])

theorem bind_pure {reader : Reader α} {next : α → Reader β} (h : Reads reader supply p ts a F)
    (hnext : next a = Pure.pure b) : Reads (reader >>= next) supply p ts b F := by
  refine h.bind_nil ?_ fun rest hrest => hrest
  rw [hnext]
  exact .pure b

/-- A phrase begins with a token that is drawn and kept. -/
theorem draw_bind {next : Option Token → Reader β} {supply' : Nat} {t : Token}
    (hnext : Reads (next (some t)) supply p ts b F) (hsupply : supply' ≤ supply + 1) :
    Reads (Reader.draw >>= next) supply' p (t :: ts) b F := by
  intro feed rest hfeed hend hrest hlength
  rw [List.cons_append] at hfeed
  refine (Yields.draw hfeed).bind_of_true fun after hquiet hafter => ?_
  refine hnext after rest hafter (fun hnil => hquiet.fault.trans (hend hnil)) hrest ?_
  rw [hfeed, List.length_cons] at hlength
  rw [hafter]
  omega

theorem expect_bind {next : Token → Reader β} {supply' : Nat} {t : Token}
    (hnext : Reads (next t) supply p ts b F) (hsupply : supply' ≤ supply + 1) :
    Reads (Reader.expect >>= next) supply' p (t :: ts) b F := by
  unfold Reader.expect
  rw [bind_assoc]
  refine .draw_bind ?_ hsupply
  rw [pure_bind]
  exact hnext

/-- A phrase begins with a token that is drawn only to see what it is. -/
theorem peek_bind {next : Option Token → Reader β} {again : Reader β} {t : Token}
    (hback : next (some t) = (Reader.handBack t >>= fun _ => again))
    (hagain : Reads again supply p (t :: ts) b F) :
    Reads (Reader.draw >>= next) supply p (t :: ts) b F := by
  intro feed rest hfeed hend hrest hlength
  rw [List.cons_append] at hfeed
  refine Yields.peek_bind again hfeed hback fun after hquiet hafter => ?_
  refine hagain after rest hafter (fun hnil => hquiet.fault.trans (hend hnil)) hrest ?_
  rw [hafter, ← hfeed]
  exact hlength

/-- A phrase ends where the next token, if there is one, turns out not to belong to
it. -/
theorem peek_end {next : Option Token → Reader β} (hnone : next none = Pure.pure b)
    (hback : ∀ t rest, F (t :: rest) →
      next (some t) = (Reader.handBack t >>= fun _ => Pure.pure b)) :
    Reads (Reader.draw >>= next) supply True [] b F := by
  intro feed rest hfeed hend hrest hlength
  cases rest with
  | nil =>
    refine (Yields.draw_nil hfeed (hend rfl)).bind_of_true fun after hquiet hafter => ?_
    rw [hnone]
    exact .of_ok rfl (.refl after) hafter
  | cons t rest =>
    refine Yields.peek_bind _ hfeed (hback t rest hrest) fun after hquiet hafter => ?_
    exact .of_ok rfl (.refl after) hafter

theorem optional {reader : Reader α} (h : Reads reader supply p ts a F) :
    Reads (Reader.optional reader) supply p ts (some a) F := by
  intro feed rest hfeed hend hrest hlength
  have hyields := h feed rest hfeed hend hrest hlength
  constructor
  · intro hroom
    obtain ⟨after, hread, hquiet, hafter⟩ := hyields.ok hroom
    exact ⟨after, optional_of_ok hread, hquiet, hafter⟩
  · intro hroom
    obtain ⟨after, hread, hquiet⟩ := hyields.tooDeep hroom
    exact ⟨after, optional_of_tooDeep hread, hquiet⟩

end Reads

end Reader

end LineCalculator
