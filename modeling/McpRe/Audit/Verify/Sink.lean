import McpRe.Audit.Sink
import McpRe.Lib.Tally

/-!
# Every offer is accounted for

What a step can do is said once (`Move`, `step_cases`). From it: the count of queued lines is the
lines that are outstanding, of every class of offers the outstanding ones are counted alike
(`Outstanding`, `Balanced`), the offers that returned are found in one of five places
(`Accounted`), and what stands ahead of a flush is in the output when the flush is acknowledged, or
the latch is set (`Covered`). They are put together in `every_decision_accounted`.
-/

namespace McpRe.Audit

open Lib.Run Lib.Tally

namespace AuditSink

variable {τ κ : Type} [DecidableEq τ] [DecidableEq κ] {attributed : τ → Bool}

/-! ## What a step can do -/

/-- The moves of offers, drains and writer, with what each finds, takes off the channel and
changes. -/
inductive Move (attributed : τ → Bool) (s : AuditSink τ κ) :
    Option (AuditMessage τ κ) → AuditSink τ κ → Prop where
  | reserve (t : τ) (hidle : s.offers t = .idle)
      (hroom : s.queued < admissionCeiling (attributed t)) :
      Move attributed s none { s.offering t .reserved with queued := s.queued + 1 }
  | refuse (t : τ) (hidle : s.offers t = .idle)
      (hfull : admissionCeiling (attributed t) ≤ s.queued) :
      Move attributed s none (s.offering t .refused)
  | send (t : τ) (hreserved : s.offers t = .reserved) :
      Move attributed s none { s.offering t .returned with channel := s.channel ++ [.line t] }
  | fail (t : τ) (hreserved : s.offers t = .reserved) (hfull : queueDepth ≤ s.channel.length) :
      Move attributed s none (s.offering t .unsent)
  | release (t : τ) (hunsent : s.offers t = .unsent) :
      Move attributed s none { s.offering t .refused with queued := fetchSub s.queued }
  | count (t : τ) (hrefused : s.offers t = .refused) :
      Move attributed s none { s.offering t .returned with dropped := s.dropped ++ [t] }
  | flush (d : κ) (hidle : s.drains d = .idle) :
      Move attributed s none { s.draining d .waiting with channel := s.channel ++ [.flush d] }
  /-- A drain goes on: it is acknowledged only by the writer, and finds the records drained only
  where the latch is not set. -/
  | settle (d : κ) (stage : Draining) (hbegun : stage ≠ .idle)
      (hacked : stage = .acknowledged → s.acked d = true)
      (hdrained : stage = .returned .drained → s.drains d = .acknowledged ∧ s.failed = false) :
      Move attributed s none (s.draining d stage)
  | take (t : τ) (rest : List (AuditMessage τ κ)) (hwaiting : s.writer = .waiting)
      (hchannel : s.channel = .line t :: rest) :
      Move attributed s (some (.line t)) { s with channel := rest, writer := .dequeued t }
  | takeFlush (d : κ) (rest : List (AuditMessage τ κ)) (hwaiting : s.writer = .waiting)
      (hchannel : s.channel = .flush d :: rest) :
      Move attributed s (some (.flush d)) { s with channel := rest, writer := .swapping (.flush d) }
  | interval (hwaiting : s.writer = .waiting) :
      Move attributed s none { s with writer := .swapping .nothing }
  | dequeue (t : τ) (hwriter : s.writer = .dequeued t) :
      Move attributed s none { s with queued := s.queued - 1, writer := .swapping (.line t) }
  | swap (next : Turn τ κ) (hwriter : s.writer = .swapping next) :
      Move attributed s none
        { s with dropped := []
                 writer := if s.dropped = [] then next.stage else .reporting s.dropped next }
  | report (drops : List τ) (next : Turn τ κ) (hwriter : s.writer = .reporting drops next) :
      Move attributed s none { s with out := s.out ++ [.report drops], writer := next.stage }
  | miss (drops : List τ) (next : Turn τ κ) (hwriter : s.writer = .reporting drops next) :
      Move attributed s none { s with writer := .restoring drops next }
  | restore (drops : List τ) (next : Turn τ κ) (hwriter : s.writer = .restoring drops next) :
      Move attributed s none { s with dropped := s.dropped ++ drops, writer := .latching next }
  | latch (next : Turn τ κ) (hwriter : s.writer = .latching next) :
      Move attributed s none { s with failed := true, writer := next.stage }
  | write (t : τ) (hwriter : s.writer = .writing t) :
      Move attributed s none { s with out := s.out ++ [.line t], writer := .waiting }
  | lose (t : τ) (hwriter : s.writer = .writing t) :
      Move attributed s none { s with writer := .unwritten }
  | latchLine (hwriter : s.writer = .unwritten) :
      Move attributed s none { s with failed := true, writer := .waiting }
  | ack (d : κ) (hwriter : s.writer = .acking d) :
      Move attributed s none { s with acked := Function.update s.acked d true, writer := .waiting }

theorem offer_cases (s : AuditSink τ κ) (t : τ) :
    s.offer attributed t = s ∨ Move attributed s none (s.offer attributed t) := by
  unfold offer
  split
  next hidle =>
    split_ifs with hroom
    · exact .inr (.reserve t hidle hroom)
    · exact .inr (.refuse t hidle (Nat.le_of_not_lt hroom))
  next hreserved =>
    split_ifs with hroom
    · exact .inr (.send t hreserved)
    · exact .inr (.fail t hreserved (Nat.le_of_not_lt hroom))
  next hunsent => exact .inr (.release t hunsent)
  next hrefused => exact .inr (.count t hrefused)
  next => exact .inl rfl

theorem drain_cases (s : AuditSink τ κ) (d : κ) :
    s.drain d = s ∨ Move attributed s none (s.drain d) := by
  unfold drain
  split
  next hidle =>
    split_ifs with hroom
    · exact .inr (.flush d hidle)
    · exact .inr (.settle d _ nofun nofun nofun)
  next =>
    split_ifs with hacked
    · exact .inr (.settle d _ nofun (fun _ => hacked) nofun)
    · exact .inl rfl
  next hacknowledged =>
    refine .inr (.settle d _ nofun nofun fun hstage => ⟨hacknowledged, ?_⟩)
    split_ifs at hstage with hfailed
    · cases hstage
    · exact Bool.not_eq_true _ ▸ hfailed
  next => exact .inl rfl

theorem expire_cases (s : AuditSink τ κ) (d : κ) :
    s.expire d = s ∨ Move attributed s none (s.expire d) := by
  unfold expire
  split
  next => exact .inr (.settle d _ nofun nofun nofun)
  next => exact .inl rfl

theorem write_cases (s : AuditSink τ κ) (ok : Bool) :
    s.write ok = s ∨ Move attributed s none (s.write ok) := by
  unfold write
  split
  next => exact .inl rfl
  next t hwriter => exact .inr (.dequeue t hwriter)
  next next hwriter => exact .inr (.swap next hwriter)
  next drops next hwriter =>
    split_ifs
    · exact .inr (.report drops next hwriter)
    · exact .inr (.miss drops next hwriter)
  next drops next hwriter => exact .inr (.restore drops next hwriter)
  next next hwriter => exact .inr (.latch next hwriter)
  next t hwriter =>
    split_ifs
    · exact .inr (.write t hwriter)
    · exact .inr (.lose t hwriter)
  next hwriter => exact .inr (.latchLine hwriter)
  next d hwriter => exact .inr (.ack d hwriter)

variable (attributed) in
theorem step_cases (s : AuditSink τ κ) (a : SinkAction τ κ) :
    s.step attributed a = (none, s) ∨
      Move attributed s (s.step attributed a).1 (s.step attributed a).2 := by
  have pair : ∀ s' : AuditSink τ κ, s' = s ∨ Move attributed s none s' →
      (none, s') = ((none : Option (AuditMessage τ κ)), s) ∨ Move attributed s none s' := by
    rintro s' (rfl | hmove)
    · exact .inl rfl
    · exact .inr hmove
  cases a with
  | offer t => exact pair _ (offer_cases s t)
  | drain d => exact pair _ (drain_cases s d)
  | expire d => exact pair _ (expire_cases s d)
  | write ok => exact pair _ (write_cases s ok)
  | receive =>
    simp only [step]
    split
    next t rest hwaiting hchannel => exact .inr (.take t rest hwaiting hchannel)
    next d rest hwaiting hchannel => exact .inr (.takeFlush d rest hwaiting hchannel)
    next => exact .inl rfl
  | interval =>
    simp only [step]
    split
    next hwaiting => exact .inr (.interval hwaiting)
    next => exact .inl rfl

theorem step_of_move {P : AuditSink τ κ → Prop} {s : AuditSink τ κ} (hs : P s)
    (hmove : ∀ {answer s'}, Move attributed s answer s' → P s') (a : SinkAction τ κ) :
    P (s.step attributed a).2 := by
  rcases step_cases attributed s a with hsame | h
  · rwa [hsame]
  · exact hmove h

end AuditSink

/-! ## The lines that are outstanding -/

/-- The offer has a slot that it has not handed on. -/
def Offering.reserves : Offering → Bool
  | .reserved | .unsent => true
  | _ => false

section

variable {τ κ : Type}

/-- A line of a class of offers. -/
def AuditMessage.isLine (c : τ → Bool) : AuditMessage τ κ → Bool
  | .line t => c t
  | .flush _ => false

def Writing.dequeues (c : τ → Bool) : Writing τ κ → Bool
  | .dequeued t => c t
  | _ => false

theorem Turn.dequeues_stage (c : τ → Bool) (next : Turn τ κ) : next.stage.dequeues c = false := by
  cases next <;> rfl

/-- The lines of a class that wait in a channel. -/
def linesOf (c : τ → Bool) (channel : List (AuditMessage τ κ)) : Nat :=
  channel.countP (AuditMessage.isLine c)

theorem linesOf_append (c : τ → Bool) (channel : List (AuditMessage τ κ)) (m : AuditMessage τ κ) :
    linesOf c (channel ++ [m]) = linesOf c channel + (m.isLine c).toNat := by
  unfold linesOf
  rw [List.countP_append, List.countP_singleton]
  cases m.isLine c <;> rfl

theorem linesOf_cons (c : τ → Bool) (m : AuditMessage τ κ) (rest : List (AuditMessage τ κ)) :
    linesOf c (m :: rest) = linesOf c rest + (m.isLine c).toNat := by
  unfold linesOf
  rw [List.countP_cons]
  cases m.isLine c <;> rfl

/-- Where no flush is pending, the channel holds lines. -/
theorem linesOf_eq_length {channel : List (AuditMessage τ κ)} (h : ∀ d, .flush d ∉ channel) :
    linesOf (fun _ => true) channel = channel.length := by
  refine List.countP_eq_length.2 fun m hm => ?_
  cases m with
  | line t => rfl
  | flush d => exact absurd hm (h d)

end

namespace AuditSink

section

variable {τ κ : Type}

/-- Of a class of offers, this many lines are outstanding: in the channel, reserved for, or taken
and not yet counted off. -/
def Outstanding (c : τ → Bool) (s : AuditSink τ κ) (n : Nat) : Prop :=
  ∃ held, Counts (fun t => (s.offers t).reserves && c t) held ∧
    n = linesOf c s.channel + held + (s.writer.dequeues c).toNat

/-- How the outstanding lines change, of every class at once. -/
inductive Change (attributed : τ → Bool) (s s' : AuditSink τ κ) : Prop where
  | enters (t : τ) (hroom : s.queued < admissionCeiling (attributed t))
      (hqueued : s'.queued = s.queued + 1)
      (hclass : ∀ c n, Outstanding c s n → Outstanding c s' (n + (c t).toNat))
  | leaves (t : τ) (hqueued : 0 < s.queued → s.queued ≤ queueDepth → s'.queued = s.queued - 1)
      (hclass : ∀ c n, Outstanding c s n → ∃ m, n = m + (c t).toNat ∧ Outstanding c s' m)
  | keeps (hqueued : s'.queued = s.queued) (hclass : ∀ c n, Outstanding c s n → Outstanding c s' n)

theorem Change.of_writer {attributed : τ → Bool} {s s' : AuditSink τ κ}
    (hqueued : s'.queued = s.queued) (hoffers : s'.offers = s.offers)
    (hchannel : ∀ c, linesOf c s'.channel = linesOf c s.channel)
    (hwriter : ∀ c, s'.writer.dequeues c = s.writer.dequeues c) : Change attributed s s' := by
  refine .keeps hqueued fun c n h => ?_
  obtain ⟨held, hheld, hn⟩ := h
  refine ⟨held, ?_, ?_⟩
  · rwa [hoffers]
  · rw [hchannel, hwriter]
    exact hn

end

variable {τ κ : Type} [DecidableEq τ] [DecidableEq κ] {attributed : τ → Bool}

omit [DecidableEq κ] in
theorem exists_held {c : τ → Bool} {s : AuditSink τ κ} {held : Nat}
    (h : Counts (fun t => (s.offers t).reserves && c t) held) (t : τ) (stage : Offering) :
    ∃ held', Counts (fun t' => ((s.offering t stage).offers t').reserves && c t') held' ∧
      held' + ((s.offers t).reserves && c t).toNat = held + (stage.reserves && c t).toNat := by
  obtain ⟨held', hheld', hcount⟩ := h.exists_update (q := fun t' =>
    ((s.offering t stage).offers t').reserves && c t') t fun t' ht' => by
      simp only [offering, Function.update_of_ne ht']
  simp only [offering, Function.update_self] at hcount
  exact ⟨held', hheld', hcount⟩

theorem Move.change {s s' : AuditSink τ κ} {answer : Option (AuditMessage τ κ)}
    (h : Move attributed s answer s') : Change attributed s s' := by
  cases h with
  | reserve t hidle hroom =>
    refine .enters t hroom rfl fun c n hn => ?_
    obtain ⟨held, hheld, rfl⟩ := hn
    obtain ⟨held', hheld', hcount⟩ := exists_held hheld t .reserved
    refine ⟨held', hheld', ?_⟩
    simp only [hidle, Offering.reserves, Bool.false_and, Bool.true_and, Bool.toNat_false] at hcount
    dsimp only [offering]
    omega
  | refuse t hidle hfull =>
    refine .keeps rfl fun c n hn => ?_
    obtain ⟨held, hheld, rfl⟩ := hn
    obtain ⟨held', hheld', hcount⟩ := exists_held hheld t .refused
    refine ⟨held', hheld', ?_⟩
    simp only [hidle, Offering.reserves, Bool.false_and, Bool.toNat_false] at hcount
    dsimp only [offering]
    omega
  | send t hreserved =>
    -- the slot is handed on with the line
    refine .keeps rfl fun c n hn => ?_
    obtain ⟨held, hheld, rfl⟩ := hn
    obtain ⟨held', hheld', hcount⟩ := exists_held hheld t .returned
    refine ⟨held', hheld', ?_⟩
    simp only [hreserved, Offering.reserves, Bool.false_and, Bool.true_and, Bool.toNat_false]
      at hcount
    dsimp only [offering]
    rw [linesOf_append, AuditMessage.isLine]
    omega
  | fail t hreserved hfull =>
    refine .keeps rfl fun c n hn => ?_
    obtain ⟨held, hheld, rfl⟩ := hn
    obtain ⟨held', hheld', hcount⟩ := exists_held hheld t .unsent
    refine ⟨held', hheld', ?_⟩
    simp only [hreserved, Offering.reserves, Bool.true_and] at hcount
    dsimp only [offering]
    omega
  | release t hunsent =>
    refine .leaves t (fun hpos hdepth => ?_) fun c n hn => ?_
    · dsimp only [fetchSub]
      rw [queueDepth] at hdepth
      omega
    · obtain ⟨held, hheld, rfl⟩ := hn
      obtain ⟨held', hheld', hcount⟩ := exists_held hheld t .refused
      simp only [hunsent, Offering.reserves, Bool.false_and, Bool.true_and, Bool.toNat_false]
        at hcount
      refine ⟨linesOf c s.channel + held' + (s.writer.dequeues c).toNat, ?_, held', hheld', rfl⟩
      omega
  | count t hrefused =>
    refine .keeps rfl fun c n hn => ?_
    obtain ⟨held, hheld, rfl⟩ := hn
    obtain ⟨held', hheld', hcount⟩ := exists_held hheld t .returned
    refine ⟨held', hheld', ?_⟩
    simp only [hrefused, Offering.reserves, Bool.false_and, Bool.toNat_false] at hcount
    dsimp only [offering]
    omega
  | flush d hidle =>
    refine .of_writer rfl rfl (fun c => ?_) fun c => rfl
    dsimp only [draining]
    rw [linesOf_append]
    rfl
  | settle d stage hbegun hacked hdrained => exact .of_writer rfl rfl (fun c => rfl) fun c => rfl
  | take t rest hwaiting hchannel =>
    refine .keeps rfl fun c n hn => ?_
    obtain ⟨held, hheld, rfl⟩ := hn
    refine ⟨held, hheld, ?_⟩
    rw [hchannel, hwaiting, linesOf_cons]
    dsimp only [Writing.dequeues, AuditMessage.isLine, Bool.toNat_false]
    omega
  | takeFlush d rest hwaiting hchannel =>
    refine .of_writer rfl rfl (fun c => ?_) fun c => ?_
    · rw [hchannel, linesOf_cons]
      rfl
    · rw [hwaiting]
      rfl
  | dequeue t hwriter =>
    refine .leaves t (fun _ _ => rfl) fun c n hn => ?_
    obtain ⟨held, hheld, rfl⟩ := hn
    refine ⟨linesOf c s.channel + held, ?_, held, hheld, rfl⟩
    rw [hwriter]
    rfl
  | swap next hwriter =>
    refine .of_writer rfl rfl (fun c => rfl) fun c => ?_
    dsimp only
    rw [hwriter]
    split_ifs
    · exact Turn.dequeues_stage c next
    · rfl
  | report drops next hwriter =>
    refine .of_writer rfl rfl (fun c => rfl) fun c => ?_
    rw [hwriter]
    exact Turn.dequeues_stage c next
  | latch next hwriter =>
    refine .of_writer rfl rfl (fun c => rfl) fun c => ?_
    rw [hwriter]
    exact Turn.dequeues_stage c next
  | interval hwriter | miss _ _ hwriter | restore _ _ hwriter | write _ hwriter | lose _ hwriter
  | latchLine hwriter | ack _ hwriter =>
    refine .of_writer rfl rfl (fun c => rfl) fun c => ?_
    rw [hwriter]
    rfl

theorem admissionCeiling_le (attributed : Bool) : admissionCeiling attributed ≤ queueDepth := by
  cases attributed <;> decide

/-- The count of queued lines is the lines that are outstanding; those that no actor stands behind
keep below their ceiling. -/
structure Balanced (attributed : τ → Bool) (s : AuditSink τ κ) : Prop where
  total : Outstanding (fun _ => true) s s.queued
  classes : ∃ named others, Outstanding attributed s named ∧
    Outstanding (fun t => !attributed t) s others ∧ named + others = s.queued ∧
    others ≤ unattributedCeiling
  bound : s.queued ≤ queueDepth

omit [DecidableEq τ] [DecidableEq κ] in
theorem Balanced.new : Balanced attributed (AuditSink.new : AuditSink τ κ) where
  total := ⟨0, .none fun _ => rfl, rfl⟩
  classes := ⟨0, 0, ⟨0, .none fun _ => rfl, rfl⟩, ⟨0, .none fun _ => rfl, rfl⟩, rfl, Nat.zero_le _⟩
  bound := Nat.zero_le _

omit [DecidableEq τ] [DecidableEq κ] in
theorem Balanced.change {s s' : AuditSink τ κ} (h : Balanced attributed s)
    (hchange : Change attributed s s') : Balanced attributed s' := by
  obtain ⟨htotal, ⟨named, others, hnamed, hothers, hsum, hceiling⟩, hbound⟩ := h
  cases hchange with
  | enters t hroom hqueued hclass =>
    have hadmitted := Nat.lt_of_lt_of_le hroom (admissionCeiling_le (attributed t))
    have hsplit : (attributed t).toNat + (!attributed t).toNat = 1 := by cases attributed t <;> rfl
    have hothers' : others + (!attributed t).toNat ≤ unattributedCeiling := by
      cases ht : attributed t with
      | true => exact hceiling
      | false =>
        rw [ht, admissionCeiling, if_neg Bool.false_ne_true] at hroom
        rw [Bool.not_false, Bool.toNat_true]
        omega
    have hnext := hclass _ _ htotal
    refine ⟨hqueued ▸ hnext, ⟨_, _, hclass _ _ hnamed, hclass _ _ hothers, ?_, hothers'⟩, ?_⟩
    · omega
    · omega
  | leaves t hqueued hclass =>
    obtain ⟨m, hm, hnext⟩ := hclass _ _ htotal
    obtain ⟨named', hnamed', hnext₁⟩ := hclass _ _ hnamed
    obtain ⟨others', hothers', hnext₂⟩ := hclass _ _ hothers
    rw [Bool.toNat_true] at hm
    have hless := hqueued (by omega) hbound
    have hm' : m = s'.queued := by omega
    refine ⟨hm' ▸ hnext, ⟨_, _, hnext₁, hnext₂, ?_, by omega⟩, by omega⟩
    cases ht : attributed t with
    | true =>
      simp only [ht, Bool.not_true, Bool.toNat_true, Bool.toNat_false] at hnamed' hothers'
      omega
    | false =>
      simp only [ht, Bool.not_false, Bool.toNat_true, Bool.toNat_false] at hnamed' hothers'
      omega
  | keeps hqueued hclass =>
    rw [← hqueued] at htotal hsum hbound
    exact ⟨hclass _ _ htotal, ⟨_, _, hclass _ _ hnamed, hclass _ _ hothers, hsum, hceiling⟩, hbound⟩

theorem Balanced.step (s : AuditSink τ κ) (a : SinkAction τ κ) (h : Balanced attributed s) :
    Balanced attributed (s.step attributed a).2 :=
  step_of_move h (fun hmove => h.change hmove.change) a

omit [DecidableEq τ] [DecidableEq κ] in
/-- A count that is about to go down is not zero. -/
theorem Balanced.queued_pos {s : AuditSink τ κ} (h : Balanced attributed s)
    (hdown : (∃ t, s.offers t = .unsent) ∨ ∃ t, s.writer = .dequeued t) : 0 < s.queued := by
  obtain ⟨held, hheld, hqueued⟩ := h.total
  rcases hdown with ⟨t, ht⟩ | ⟨t, ht⟩
  · have hpos := hheld.pos (t := t) (by rw [ht]; rfl)
    omega
  · rw [ht, Writing.dequeues, Bool.toNat_true] at hqueued
    omega

/-! ## What is dropped -/

/-- The step decides that the offer's line is dropped. -/
def Drops (s s' : AuditSink τ κ) (t : τ) : Prop :=
  (s.offers t = .idle ∧ s'.offers t = .refused) ∨ (s.offers t = .reserved ∧ s'.offers t = .unsent)

omit [DecidableEq τ] [DecidableEq κ] in
theorem not_drops_self {s : AuditSink τ κ} {t : τ} : ¬Drops s s t := by
  rintro (⟨hidle, hrefused⟩ | ⟨hreserved, hunsent⟩)
  · rw [hidle] at hrefused
    cases hrefused
  · rw [hreserved] at hunsent
    cases hunsent

theorem eq_of_update {f : τ → Offering} {t t' : τ} {stage : Offering}
    (h : Function.update f t' stage t ≠ f t) : t = t' := by
  by_contra hne
  exact h (Function.update_of_ne hne ..)

theorem Move.full_of_drops {s s' : AuditSink τ κ} {answer : Option (AuditMessage τ κ)} {t : τ}
    (h : Move attributed s answer s') (hdrops : Drops s s' t) :
    (s.offers t = .idle ∧ admissionCeiling (attributed t) ≤ s.queued) ∨
      (s.offers t = .reserved ∧ queueDepth ≤ s.channel.length) := by
  have hchanged : s'.offers t ≠ s.offers t := by
    rcases hdrops with ⟨hbefore, hafter⟩ | ⟨hbefore, hafter⟩
    · rw [hbefore, hafter]
      exact nofun
    · rw [hbefore, hafter]
      exact nofun
  cases h with
  | refuse t' hidle hfull =>
    obtain rfl := eq_of_update hchanged
    exact .inl ⟨hidle, hfull⟩
  | fail t' hreserved hfull =>
    obtain rfl := eq_of_update hchanged
    exact .inr ⟨hreserved, hfull⟩
  | reserve t' hstage | send t' hstage | release t' hstage | count t' hstage =>
    obtain rfl := eq_of_update hchanged
    simp [Drops, offering, hstage] at hdrops
  | _ => exact absurd rfl hchanged

/-- **No flood evicts an attributed record**: outside a pending flush its line is dropped only where
that many lines of its own class are outstanding. -/
theorem Balanced.evicted_by_named {s s' : AuditSink τ κ} {answer : Option (AuditMessage τ κ)}
    {t : τ} (h : Balanced attributed s) (hmove : Move attributed s answer s')
    (ht : attributed t = true) (hdrops : Drops s s' t) (hflush : ∀ d, .flush d ∉ s.channel) :
    ∃ named, Outstanding attributed s named ∧ queueDepth - unattributedCeiling ≤ named := by
  obtain ⟨named, others, hnamed, -, hsum, hceiling⟩ := h.classes
  refine ⟨named, hnamed, ?_⟩
  rcases hmove.full_of_drops hdrops with ⟨-, hfull⟩ | ⟨hreserved, hfull⟩
  · rw [ht, admissionCeiling, if_pos rfl] at hfull
    omega
  · -- the lines of a full channel and this slot are more than the count can be
    obtain ⟨held, hheld, hqueued⟩ := h.total
    have hpos := hheld.pos (t := t) (by rw [hreserved]; rfl)
    have hbound := h.bound
    rw [linesOf_eq_length hflush] at hqueued
    omega

end AuditSink

/-! ## Where the offers that returned are -/

section

variable {τ κ : Type}

def Offering.completed : Offering → Bool
  | .returned => true
  | _ => false

def Written.drops : Written τ → Nat
  | .line _ => 0
  | .report drops => drops.length

def Writing.inReport : Writing τ κ → Nat
  | .reporting drops _ | .restoring drops _ => drops.length
  | _ => 0

theorem Turn.inReport_stage (next : Turn τ κ) : next.stage.inReport = 0 := by
  cases next <;> rfl

/-- The message is a line that the writer has taken. -/
def tookLine : Option (AuditMessage τ κ) → Bool
  | some (.line _) => true
  | _ => false

end

namespace AuditSink

section

variable {τ κ : Type}

def reported (s : AuditSink τ κ) : Nat := (s.out.map Written.drops).sum

def taken (past : List (Step (AuditSink τ κ) (SinkAction τ κ) (Option (AuditMessage τ κ)))) : Nat :=
  past.countP fun u => tookLine u.answer

/-- The lines that are queued, the drop counter, and the drops in the reports. -/
def pending (s : AuditSink τ κ) : Nat :=
  linesOf (fun _ => true) s.channel + s.dropped.length + s.writer.inReport + s.reported

end

variable {τ κ : Type} [DecidableEq τ] [DecidableEq κ] {attributed : τ → Bool}

omit [DecidableEq κ] in
theorem exists_completed {s : AuditSink τ κ} {n : Nat}
    (h : Counts (fun t => (s.offers t).completed) n) (t : τ) (stage : Offering) :
    ∃ m, Counts (fun t' => ((s.offering t stage).offers t').completed) m ∧
      m + (s.offers t).completed.toNat = n + stage.completed.toNat := by
  obtain ⟨m, hm, hcount⟩ := h.exists_update (q := fun t' =>
    ((s.offering t stage).offers t').completed) t fun t' ht' => by
      simp only [offering, Function.update_of_ne ht']
  simp only [offering, Function.update_self] at hcount
  exact ⟨m, hm, hcount⟩

/-- An offer that returns is pending from then on; what is pending stays so until it is taken. -/
theorem Move.completed {s s' : AuditSink τ κ} {answer : Option (AuditMessage τ κ)} {past : Nat}
    (h : Move attributed s answer s')
    (hcount : Counts (fun t => (s.offers t).completed) (past + s.pending)) :
    Counts (fun t => (s'.offers t).completed) (past + (tookLine answer).toNat + s'.pending) := by
  have keep : ∀ {s'' : AuditSink τ κ}, s''.offers = s.offers →
      past + (tookLine answer).toNat + s''.pending = past + s.pending →
      Counts (fun t => (s''.offers t).completed)
        (past + (tookLine answer).toNat + s''.pending) := by
    intro s'' hoffers hsame
    rw [hoffers, hsame]
    exact hcount
  have go : ∀ {s'' : AuditSink τ κ} (t : τ) (stage : Offering),
      s''.offers = (s.offering t stage).offers →
      past + (tookLine answer).toNat + s''.pending + (s.offers t).completed.toNat =
        past + s.pending + stage.completed.toNat →
      Counts (fun t => (s''.offers t).completed)
        (past + (tookLine answer).toNat + s''.pending) := by
    intro s'' t stage hoffers hsame
    obtain ⟨m, hm, heq⟩ := exists_completed hcount t stage
    obtain rfl : m = past + (tookLine answer).toNat + s''.pending := by omega
    rwa [hoffers]
  cases h with
  | reserve t hstage => exact go t .reserved rfl (by rw [hstage]; rfl)
  | refuse t hstage => exact go t .refused rfl (by rw [hstage]; rfl)
  | fail t hstage => exact go t .unsent rfl (by rw [hstage]; rfl)
  | release t hstage =>
    refine go t .refused rfl ?_
    dsimp only [pending, offering, reported]
    rw [hstage]
    rfl
  | send t hstage =>
    refine go t .returned rfl ?_
    dsimp only [pending, offering, reported]
    rw [hstage, linesOf_append]
    dsimp only [tookLine, AuditMessage.isLine, Offering.completed, Bool.toNat_true,
      Bool.toNat_false]
    omega
  | count t hstage =>
    refine go t .returned rfl ?_
    dsimp only [pending, offering, reported]
    rw [hstage, List.length_append, List.length_singleton]
    dsimp only [tookLine, Offering.completed, Bool.toNat_true, Bool.toNat_false]
    omega
  | flush d hidle =>
    refine keep rfl ?_
    dsimp only [pending, draining, reported]
    rw [linesOf_append]
    rfl
  | settle d stage hbegun hacked hdrained => exact keep rfl rfl
  | take t rest hwaiting hchannel =>
    refine keep rfl ?_
    dsimp only [pending, reported]
    rw [hchannel, hwaiting, linesOf_cons]
    dsimp only [tookLine, AuditMessage.isLine, Writing.inReport, Bool.toNat_true]
    omega
  | takeFlush d rest hwaiting hchannel =>
    refine keep rfl ?_
    dsimp only [pending, reported]
    rw [hchannel, hwaiting, linesOf_cons]
    rfl
  | dequeue t hwriter =>
    refine keep rfl ?_
    dsimp only [pending, reported]
    rw [hwriter]
    rfl
  | swap next hwriter =>
    refine keep rfl ?_
    dsimp only [pending, reported]
    rw [hwriter]
    split_ifs with hempty
    · rw [hempty, Turn.inReport_stage]
      rfl
    · dsimp only [tookLine, Writing.inReport, Bool.toNat_false, List.length_nil]
      omega
  | report drops next hwriter =>
    refine keep rfl ?_
    dsimp only [pending, reported]
    rw [hwriter, Turn.inReport_stage, List.map_append, List.sum_append, List.map_singleton,
      List.sum_singleton]
    dsimp only [tookLine, Writing.inReport, Written.drops, Bool.toNat_false]
    omega
  | restore drops next hwriter =>
    refine keep rfl ?_
    dsimp only [pending, reported]
    rw [hwriter, List.length_append]
    dsimp only [tookLine, Writing.inReport, Bool.toNat_false]
    omega
  | latch next hwriter =>
    refine keep rfl ?_
    dsimp only [pending, reported]
    rw [hwriter, Turn.inReport_stage]
    rfl
  | write t hwriter =>
    refine keep rfl ?_
    dsimp only [pending, reported]
    rw [hwriter, List.map_append, List.sum_append]
    rfl
  | interval hwriter | miss _ _ hwriter | lose _ hwriter | latchLine hwriter | ack _ hwriter =>
    refine keep rfl ?_
    dsimp only [pending, reported]
    rw [hwriter]
    rfl

/-- The offers that returned are the lines that were taken and what is pending. -/
def Accounted
    (past : List (Step (AuditSink τ κ) (SinkAction τ κ) (Option (AuditMessage τ κ))))
    (s : AuditSink τ κ) : Prop :=
  Counts (fun t => (s.offers t).completed) (taken past + s.pending)

omit [DecidableEq τ] [DecidableEq κ] in
theorem Accounted.new : Accounted [] (AuditSink.new : AuditSink τ κ) := .none fun _ => rfl

theorem Accounted.step
    (past : List (Step (AuditSink τ κ) (SinkAction τ κ) (Option (AuditMessage τ κ))))
    (s : AuditSink τ κ) (a : SinkAction τ κ) (h : Accounted past s) :
    Accounted (past ++ [⟨s, a, (s.step attributed a).1, (s.step attributed a).2⟩])
      (s.step attributed a).2 := by
  have htaken : taken (past ++ [⟨s, a, (s.step attributed a).1, (s.step attributed a).2⟩]) =
      taken past + (tookLine (s.step attributed a).1).toNat := by
    unfold taken
    rw [List.countP_append, List.countP_singleton]
    cases tookLine (s.step attributed a).1 <;> rfl
  unfold Accounted
  rw [htaken]
  rcases step_cases attributed s a with hsame | hmove
  · rw [hsame]
    exact h
  · exact hmove.completed h

end AuditSink

/-! ## What stands ahead of a flush -/

section

variable {τ κ : Type}

def Writing.turn : Writing τ κ → Turn τ κ
  | .waiting | .unwritten => .nothing
  | .dequeued t | .writing t => .line t
  | .swapping next | .reporting _ next | .restoring _ next | .latching next => next
  | .acking d => .flush d

/-- A write did not land, and the latch is still to be set. -/
def Writing.latches : Writing τ κ → Bool
  | .restoring _ _ | .latching _ | .unwritten => true
  | _ => false

theorem Turn.turn_stage (next : Turn τ κ) : next.stage.turn = next := by
  cases next <;> rfl

end

namespace AuditSink

section

variable {τ κ : Type}

/-- The offer's line was written, or its drop is counted in a report that was. -/
def Records (s : AuditSink τ κ) (t : τ) : Prop :=
  .line t ∈ s.out ∨ ∃ drops, .report drops ∈ s.out ∧ t ∈ drops

/-- The writer turns to the offer before it acknowledges the drain's flush. -/
inductive Ahead (t : τ) (d : κ) (s : AuditSink τ κ) : Prop where
  | queued (pre post : List (AuditMessage τ κ)) (hchannel : s.channel = pre ++ post)
      (hline : .line t ∈ pre) (hflush : .flush d ∉ pre) (hturn : s.writer.turn ≠ .flush d)
  | held (hturn : s.writer.turn = .line t)
  | counted (hdropped : t ∈ s.dropped)
      (hturn : s.writer.turn = .flush d → s.writer = .swapping (.flush d))
  | reporting (drops : List τ) (next : Turn τ κ) (hwriter : s.writer = .reporting drops next)
      (hdrops : t ∈ drops)

/-- The offer is in the output, or the latch is set, or that is still to come before the flush is
acknowledged. -/
def Covered (t : τ) (d : κ) (s : AuditSink τ κ) : Prop :=
  s.Records t ∨ s.failed = true ∨ (s.acked d = false ∧ (s.writer.latches = true ∨ Ahead t d s))

theorem Records.mono {s s' : AuditSink τ κ} {t : τ} (h : s.Records t)
    (hout : ∃ more, s'.out = s.out ++ more) : s'.Records t := by
  obtain ⟨more, hmore⟩ := hout
  unfold Records
  rw [hmore]
  rcases h with h | ⟨drops, h, ht⟩
  · exact .inl (List.mem_append_left _ h)
  · exact .inr ⟨drops, List.mem_append_left _ h, ht⟩

theorem Ahead.congr {t : τ} {d : κ} {s s' : AuditSink τ κ} (h : Ahead t d s)
    (hchannel : ∃ more, s'.channel = s.channel ++ more) (hdropped : s.dropped ⊆ s'.dropped)
    (hwriter : s'.writer = s.writer) : Ahead t d s' := by
  obtain ⟨more, hmore⟩ := hchannel
  cases h with
  | queued pre post hchannel hline hflush hturn =>
    refine .queued pre (post ++ more) ?_ hline hflush (hwriter ▸ hturn)
    rw [hmore, hchannel, List.append_assoc]
  | held hturn => exact .held (hwriter ▸ hturn)
  | counted hmem hturn => exact .counted (hdropped hmem) (hwriter ▸ hturn)
  | reporting drops next hreporting hdrops =>
    exact .reporting drops next (hwriter ▸ hreporting) hdrops

theorem Covered.congr {t : τ} {d : κ} {s s' : AuditSink τ κ} (h : Covered t d s)
    (hout : s'.out = s.out) (hfailed : s'.failed = s.failed) (hacked : s'.acked = s.acked)
    (hchannel : ∃ more, s'.channel = s.channel ++ more) (hdropped : s.dropped ⊆ s'.dropped)
    (hwriter : s'.writer = s.writer) : Covered t d s' := by
  unfold Covered Records
  rw [hout, hfailed, hacked, hwriter]
  rcases h with hrecords | hfailed | ⟨hacked, hlatches | hahead⟩
  · exact .inl hrecords
  · exact .inr (.inl hfailed)
  · exact .inr (.inr ⟨hacked, .inl hlatches⟩)
  · exact .inr (.inr ⟨hacked, .inr (hahead.congr hchannel hdropped hwriter)⟩)

end

variable {τ κ : Type} [DecidableEq τ] [DecidableEq κ] {attributed : τ → Bool}

omit [DecidableEq τ] [DecidableEq κ] in
theorem Covered.advance {t : τ} {d : κ} {s s' : AuditSink τ κ} (h : Covered t d s)
    (hrecords : s.Records t → s'.Records t) (hfailed : s.failed = true → s'.failed = true)
    (hnext : s.writer.latches = true ∨ Ahead t d s → s'.Records t ∨ s'.failed = true ∨
      (s'.acked d = s.acked d ∧ (s'.writer.latches = true ∨ Ahead t d s'))) :
    Covered t d s' := by
  rcases h with h | h | ⟨hacked, h⟩
  · exact .inl (hrecords h)
  · exact .inr (.inl (hfailed h))
  · rcases hnext h with h | h | ⟨hsame, h⟩
    · exact .inl h
    · exact .inr (.inl h)
    · exact .inr (.inr ⟨hsame.trans hacked, h⟩)

omit [DecidableEq τ] [DecidableEq κ] in
theorem Ahead.same_turn {t : τ} {d : κ} {s s' : AuditSink τ κ} (h : Ahead t d s)
    (hchannel : s'.channel = s.channel) (hturn : s'.writer.turn = s.writer.turn)
    (hcounted : t ∈ s.dropped → (s.writer.turn = .flush d → s.writer = .swapping (.flush d)) →
      Ahead t d s')
    (hreporting : ∀ drops next, s.writer = .reporting drops next → t ∈ drops → Ahead t d s') :
    Ahead t d s' := by
  cases h with
  | queued pre post hsplit hline hflush hnot =>
    exact .queued pre post (hchannel.trans hsplit) hline hflush (hturn ▸ hnot)
  | held hheld => exact .held (hturn.trans hheld)
  | counted hdropped hswap => exact hcounted hdropped hswap
  | reporting drops next hwriter hdrops => exact hreporting drops next hwriter hdrops

omit [DecidableEq τ] [DecidableEq κ] in
/-- The writer takes the first message off the channel. -/
theorem Ahead.take {t : τ} {d : κ} {s s' : AuditSink τ κ} {m : AuditMessage τ κ}
    {rest : List (AuditMessage τ κ)} (h : Ahead t d s) (hwaiting : s.writer = .waiting)
    (hchannel : s.channel = m :: rest) (hchannel' : s'.channel = rest)
    (hdropped : s'.dropped = s.dropped) (hline : m = .line t → s'.writer.turn = .line t)
    (hturn : s'.writer.turn = .flush d → m = .flush d ∧ s'.writer = .swapping (.flush d)) :
    Ahead t d s' := by
  cases h with
  | queued pre post hsplit hmem hflush hnot =>
    cases pre with
    | nil => cases hmem
    | cons m' pre =>
      rw [hchannel] at hsplit
      obtain ⟨rfl, hrest⟩ := List.cons.inj hsplit
      rcases List.mem_cons.1 hmem with hhead | hmem
      · exact .held (hline hhead.symm)
      · refine .queued pre post (hchannel'.trans hrest) hmem
          (fun hahead => hflush (List.mem_cons_of_mem _ hahead)) fun hnext => hflush ?_
        rw [(hturn hnext).1]
        exact List.mem_cons_self
  | held hheld =>
    rw [hwaiting] at hheld
    cases hheld
  | counted hmem hswap => exact .counted (hdropped ▸ hmem) fun hnext => (hturn hnext).2
  | reporting drops next hwriter hdrops =>
    rw [hwaiting] at hwriter
    cases hwriter

theorem Covered.move {t : τ} {d : κ} {s s' : AuditSink τ κ} {answer : Option (AuditMessage τ κ)}
    (h : Covered t d s) (hmove : Move attributed s answer s') : Covered t d s' := by
  cases hmove with
  | reserve | refuse | fail | release | settle =>
    exact h.congr rfl rfl rfl ⟨[], (List.append_nil _).symm⟩ (List.Subset.refl _) rfl
  | send t' hreserved => exact h.congr rfl rfl rfl ⟨_, rfl⟩ (List.Subset.refl _) rfl
  | flush d' hidle => exact h.congr rfl rfl rfl ⟨_, rfl⟩ (List.Subset.refl _) rfl
  | count t' hrefused =>
    exact h.congr rfl rfl rfl ⟨[], (List.append_nil _).symm⟩ (List.subset_append_left ..) rfl
  | take t' rest hwaiting hchannel =>
    refine h.advance id id fun hahead => .inr (.inr ⟨rfl, .inr ?_⟩)
    rw [hwaiting] at hahead
    rcases hahead with hlatches | hahead
    · cases hlatches
    · refine hahead.take hwaiting hchannel rfl rfl (fun hline => ?_) nofun
      cases hline
      rfl
  | takeFlush d' rest hwaiting hchannel =>
    refine h.advance id id fun hahead => .inr (.inr ⟨rfl, .inr ?_⟩)
    rw [hwaiting] at hahead
    rcases hahead with hlatches | hahead
    · cases hlatches
    · refine hahead.take hwaiting hchannel rfl rfl nofun fun hturn => ?_
      cases hturn
      exact ⟨rfl, rfl⟩
  | interval hwaiting =>
    refine h.advance id id fun hahead => .inr (.inr ⟨rfl, .inr ?_⟩)
    rcases hahead with hlatches | hahead
    · rw [hwaiting] at hlatches
      cases hlatches
    · refine hahead.same_turn rfl (by rw [hwaiting]; rfl) (fun hmem _ => .counted hmem nofun) ?_
      intro _ _ hnot
      rw [hwaiting] at hnot
      cases hnot
  | dequeue t' hwriter =>
    refine h.advance id id fun hahead => .inr (.inr ⟨rfl, .inr ?_⟩)
    rcases hahead with hlatches | hahead
    · rw [hwriter] at hlatches
      cases hlatches
    · refine hahead.same_turn rfl (by rw [hwriter]; rfl) (fun hmem _ => .counted hmem nofun) ?_
      intro _ _ hnot
      rw [hwriter] at hnot
      cases hnot
  | swap next hwriter =>
    refine h.advance id id fun hahead => .inr (.inr ⟨rfl, .inr ?_⟩)
    rcases hahead with hlatches | hahead
    · rw [hwriter] at hlatches
      cases hlatches
    · refine hahead.same_turn rfl ?_ (fun hmem _ => ?_) ?_
      · dsimp only
        rw [hwriter]
        split_ifs
        · exact next.turn_stage
        · rfl
      · exact .reporting s.dropped next (if_neg (List.ne_nil_of_mem hmem)) hmem
      · intro _ _ hnot
        rw [hwriter] at hnot
        cases hnot
  | report drops next hwriter =>
    refine h.advance (fun hrecords => hrecords.mono ⟨_, rfl⟩) id fun hahead => ?_
    by_cases hdrops : t ∈ drops
    · exact .inl (.inr ⟨drops, List.mem_append_right _ List.mem_cons_self, hdrops⟩)
    rcases hahead with hlatches | hahead
    · rw [hwriter] at hlatches
      cases hlatches
    · have hturn : next.stage.turn = s.writer.turn := by
        rw [hwriter]
        exact next.turn_stage
      refine .inr (.inr ⟨rfl, .inr (hahead.same_turn rfl hturn (fun hmem hswap => ?_) ?_)⟩)
      · refine .counted hmem fun hflush => ?_
        have hnot := hswap (hturn.symm.trans hflush)
        rw [hwriter] at hnot
        cases hnot
      · intro drops' _ hsame hmem
        rw [hwriter] at hsame
        cases hsame
        exact absurd hmem hdrops
  | miss drops next hwriter => exact h.advance id id fun _ => .inr (.inr ⟨rfl, .inl rfl⟩)
  | restore drops next hwriter => exact h.advance id id fun _ => .inr (.inr ⟨rfl, .inl rfl⟩)
  | latch next hwriter => exact h.advance id (fun _ => rfl) fun _ => .inr (.inl rfl)
  | lose t' hwriter => exact h.advance id id fun _ => .inr (.inr ⟨rfl, .inl rfl⟩)
  | latchLine hwriter => exact h.advance id (fun _ => rfl) fun _ => .inr (.inl rfl)
  | write t' hwriter =>
    refine h.advance (fun hrecords => hrecords.mono ⟨_, rfl⟩) id fun hahead => ?_
    rcases hahead with hlatches | hahead
    · rw [hwriter] at hlatches
      cases hlatches
    · cases hahead with
      | queued pre post hsplit hline hflush hnot =>
        exact .inr (.inr ⟨rfl, .inr (.queued pre post hsplit hline hflush nofun)⟩)
      | held hheld =>
        rw [hwriter] at hheld
        cases hheld
        exact .inl (.inl (List.mem_append_right _ List.mem_cons_self))
      | counted hmem hswap => exact .inr (.inr ⟨rfl, .inr (.counted hmem nofun)⟩)
      | reporting drops next hnot hdrops =>
        rw [hwriter] at hnot
        cases hnot
  | ack d' hwriter =>
    -- nothing can be ahead of the flush that is acknowledged
    refine h.advance id id fun hahead => .inr (.inr ?_)
    rcases hahead with hlatches | hahead
    · rw [hwriter] at hlatches
      cases hlatches
    · have hne : s.writer.turn ≠ .flush d → d ≠ d' := by
        rintro hnot rfl
        rw [hwriter] at hnot
        exact hnot rfl
      cases hahead with
      | queued pre post hsplit hline hflush hnot =>
        refine ⟨Function.update_of_ne (hne hnot) .., .inr ?_⟩
        exact .queued pre post hsplit hline hflush nofun
      | held hheld =>
        rw [hwriter] at hheld
        cases hheld
      | counted hmem hswap =>
        refine ⟨Function.update_of_ne (hne fun hturn => ?_) .., .inr (.counted hmem nofun)⟩
        have hnot := hswap hturn
        rw [hwriter] at hnot
        cases hnot
      | reporting drops next hnot hdrops =>
        rw [hwriter] at hnot
        cases hnot

/-! ## Drains -/

/-- A drain that has not begun has no flush anywhere. -/
def Unsent (d : κ) (s : AuditSink τ κ) : Prop :=
  s.drains d = .idle → .flush d ∉ s.channel ∧ s.writer.turn ≠ .flush d ∧ s.acked d = false

omit [DecidableEq τ] [DecidableEq κ] in
theorem Unsent.new (d : κ) : Unsent d (AuditSink.new : AuditSink τ κ) :=
  fun _ => ⟨List.not_mem_nil, nofun, rfl⟩

omit [DecidableEq τ] [DecidableEq κ] in
theorem Unsent.congr {d : κ} {s s' : AuditSink τ κ} (h : Unsent d s)
    (hdrains : s'.drains d = .idle → s.drains d = .idle)
    (hchannel : s'.drains d = .idle → .flush d ∈ s'.channel → .flush d ∈ s.channel)
    (hturn : s'.writer.turn = .flush d → s.writer.turn = .flush d ∨ .flush d ∈ s.channel)
    (hacked : s'.acked d = true → s.acked d = true ∨ s.writer.turn = .flush d) : Unsent d s' := by
  intro hidle
  obtain ⟨hnone, hnot, hfalse⟩ := h (hdrains hidle)
  refine ⟨fun hmem => hnone (hchannel hidle hmem), fun hnext => ?_, ?_⟩
  · rcases hturn hnext with hturn | hmem
    · exact hnot hturn
    · exact hnone hmem
  · by_contra hcon
    rcases hacked (Bool.eq_true_of_not_eq_false hcon) with htrue | hturn
    · rw [hfalse] at htrue
      cases htrue
    · exact hnot hturn

theorem idle_of_update {f : κ → Draining} {d d' : κ} {stage : Draining} (hstage : stage ≠ .idle)
    (h : Function.update f d' stage d = .idle) : d ≠ d' ∧ f d = .idle := by
  by_cases hd : d = d'
  · rw [hd, Function.update_self] at h
    exact absurd h hstage
  · rw [Function.update_of_ne hd] at h
    exact ⟨hd, h⟩

theorem Move.idle {d : κ} {s s' : AuditSink τ κ} {answer : Option (AuditMessage τ κ)}
    (h : Move attributed s answer s') (hidle : s'.drains d = .idle) : s.drains d = .idle := by
  cases h with
  | flush d' =>
    have hbegun : Draining.waiting ≠ .idle := nofun
    exact (idle_of_update hbegun hidle).2
  | settle d' stage hbegun => exact (idle_of_update hbegun hidle).2
  | _ => exact hidle

theorem Unsent.move {d : κ} {s s' : AuditSink τ κ} {answer : Option (AuditMessage τ κ)}
    (h : Unsent d s) (hmove : Move attributed s answer s') : Unsent d s' := by
  cases hmove with
  | reserve | refuse | fail | release | count => exact h.congr id (fun _ => id) .inl .inl
  | send t hreserved =>
    refine h.congr id (fun _ hmem => ?_) .inl .inl
    rcases List.mem_append.1 hmem with hmem | hmem
    · exact hmem
    · cases List.mem_singleton.1 hmem
  | flush d' hidle =>
    have hbegun : Draining.waiting ≠ .idle := nofun
    refine h.congr (fun hidle' => (idle_of_update hbegun hidle').2) (fun hidle' hmem => ?_) .inl
      .inl
    rcases List.mem_append.1 hmem with hmem | hmem
    · exact hmem
    · cases List.mem_singleton.1 hmem
      exact absurd rfl (idle_of_update hbegun hidle').1
  | settle d' stage hbegun hacked hdrained =>
    exact h.congr (fun hidle' => (idle_of_update hbegun hidle').2) (fun _ => id) .inl .inl
  | take t rest hwaiting hchannel =>
    refine h.congr id (fun _ hmem => ?_) nofun .inl
    rw [hchannel]
    exact List.mem_cons_of_mem _ hmem
  | takeFlush d' rest hwaiting hchannel =>
    refine h.congr id (fun _ hmem => ?_) (fun hturn => .inr ?_) .inl
    · rw [hchannel]
      exact List.mem_cons_of_mem _ hmem
    · cases hturn
      rw [hchannel]
      exact List.mem_cons_self
  | swap next hwriter =>
    refine h.congr id (fun _ => id) (fun hturn => .inl ?_) .inl
    rw [hwriter]
    dsimp only at hturn
    split_ifs at hturn
    · rwa [next.turn_stage] at hturn
    · exact hturn
  | report _ next hwriter | latch next hwriter =>
    refine h.congr id (fun _ => id) (fun hturn => .inl ?_) .inl
    rw [hwriter]
    exact next.turn_stage.symm.trans hturn
  | miss _ next hwriter | restore _ next hwriter =>
    refine h.congr id (fun _ => id) (fun hturn => .inl ?_) .inl
    rw [hwriter]
    exact hturn
  | interval | dequeue | write | lose | latchLine => exact h.congr id (fun _ => id) nofun .inl
  | ack d' hwriter =>
    refine h.congr id (fun _ => id) nofun fun htrue => ?_
    by_cases hd : d = d'
    · rw [hd, hwriter]
      exact .inr rfl
    · have hsame : Function.update s.acked d' true d = s.acked d := Function.update_of_ne hd ..
      exact .inl (hsame ▸ htrue)

/-- Before the drain begins, every offer that returned is ahead of its flush. -/
structure Waiting (t : τ) (d : κ) (s : AuditSink τ κ) : Prop where
  unsent : Unsent d s
  covered : s.drains d = .idle → s.offers t = .returned → Covered t d s

omit [DecidableEq τ] [DecidableEq κ] in
theorem Waiting.new (t : τ) (d : κ) : Waiting t d (AuditSink.new : AuditSink τ κ) :=
  ⟨.new d, fun _ => nofun⟩

theorem Move.returned {t : τ} {s s' : AuditSink τ κ} {answer : Option (AuditMessage τ κ)}
    (h : Move attributed s answer s') (hreturned : s'.offers t = .returned) :
    s.offers t = .returned ∨
      (s'.writer = s.writer ∧ s'.acked = s.acked ∧ (.line t ∈ s'.channel ∨ t ∈ s'.dropped)) := by
  by_cases hsame : s'.offers t = s.offers t
  · exact .inl (hsame ▸ hreturned)
  refine .inr ?_
  cases h with
  | send t' hreserved =>
    obtain rfl := eq_of_update hsame
    exact ⟨rfl, rfl, .inl (List.mem_append_right _ List.mem_cons_self)⟩
  | count t' hrefused =>
    obtain rfl := eq_of_update hsame
    exact ⟨rfl, rfl, .inr (List.mem_append_right _ List.mem_cons_self)⟩
  | reserve t' hidle | refuse t' hidle | fail t' hidle | release t' hidle =>
    obtain rfl := eq_of_update hsame
    simp [offering] at hreturned
  | _ => exact absurd rfl hsame

theorem Waiting.move {t : τ} {d : κ} {s s' : AuditSink τ κ} {answer : Option (AuditMessage τ κ)}
    (h : Waiting t d s) (hmove : Move attributed s answer s') : Waiting t d s' := by
  have hunsent := h.unsent.move hmove
  refine ⟨hunsent, fun hidle hreturned => ?_⟩
  obtain ⟨hchannel, hturn, hacked⟩ := hunsent hidle
  rcases hmove.returned hreturned with hbefore | ⟨-, -, hline | hdropped⟩
  · exact (h.covered (hmove.idle hidle) hbefore).move hmove
  · refine .inr (.inr ⟨hacked, .inr ?_⟩)
    exact .queued s'.channel [] (List.append_nil _).symm hline hchannel hturn
  · exact .inr (.inr ⟨hacked, .inr (.counted hdropped fun hflush => absurd hflush hturn)⟩)

/-- From when the drain begins: what was ahead of its flush is in the output when it finds the
records drained. -/
structure Drain (t : τ) (d : κ) (s : AuditSink τ κ) : Prop where
  covered : Covered t d s
  acknowledged : s.drains d = .acknowledged → s.acked d = true
  drained : s.drains d = .returned .drained → s.Records t

theorem Move.drains {s s' : AuditSink τ κ} {answer : Option (AuditMessage τ κ)}
    (h : Move attributed s answer s') (d : κ) :
    s'.drains d = s.drains d ∨ s'.drains d = .waiting ∨
      ((s'.drains d = .acknowledged → s.acked d = true) ∧
        (s'.drains d = .returned .drained → s.drains d = .acknowledged ∧ s.failed = false)) := by
  cases h with
  | flush d' hidle =>
    by_cases hd : d = d'
    · rw [hd]
      exact .inr (.inl (Function.update_self ..))
    · exact .inl (Function.update_of_ne hd ..)
  | settle d' stage hbegun hacked hdrained =>
    by_cases hd : d = d'
    · rw [hd]
      have hstage : (s.draining d' stage).drains d' = stage := Function.update_self ..
      rw [hstage]
      exact .inr (.inr ⟨hacked, hdrained⟩)
    · exact .inl (Function.update_of_ne hd ..)
  | _ => exact .inl rfl

theorem Move.grows {s s' : AuditSink τ κ} {answer : Option (AuditMessage τ κ)}
    (h : Move attributed s answer s') :
    (∃ more, s'.out = s.out ++ more) ∧ ∀ d, s.acked d = true → s'.acked d = true := by
  cases h with
  | report | write => exact ⟨⟨_, rfl⟩, fun _ => id⟩
  | ack d' hwriter =>
    refine ⟨⟨[], (List.append_nil _).symm⟩, fun d hacked => ?_⟩
    by_cases hd : d = d'
    · rw [hd]
      exact Function.update_self ..
    · exact (Function.update_of_ne hd ..).trans hacked
  | _ => exact ⟨⟨[], (List.append_nil _).symm⟩, fun _ => id⟩

theorem Drain.move {t : τ} {d : κ} {s s' : AuditSink τ κ} {answer : Option (AuditMessage τ κ)}
    (h : Drain t d s) (hmove : Move attributed s answer s') : Drain t d s' := by
  obtain ⟨hout, hkeeps⟩ := hmove.grows
  refine ⟨h.covered.move hmove, fun hstage => hkeeps d ?_, fun hstage => ?_⟩
  · rcases hmove.drains d with hsame | hwaiting | ⟨hacked, -⟩
    · exact h.acknowledged (hsame ▸ hstage)
    · rw [hwaiting] at hstage
      cases hstage
    · exact hacked hstage
  · rcases hmove.drains d with hsame | hwaiting | ⟨-, hdrained⟩
    · exact (h.drained (hsame ▸ hstage)).mono hout
    · rw [hwaiting] at hstage
      cases hstage
    · -- the latch was read after the acknowledgement
      obtain ⟨hacknowledged, hfailed⟩ := hdrained hstage
      rcases h.covered with hrecords | htrue | ⟨hacked, -⟩
      · exact hrecords.mono hout
      · rw [hfailed] at htrue
        cases htrue
      · rw [h.acknowledged hacknowledged] at hacked
        cases hacked

/-! ## Every run -/

theorem records_of_drained {t : τ} {d : κ} {s : AuditSink τ κ} (h : Waiting t d s)
    (hidle : s.drains d = .idle) (hreturned : s.offers t = .returned) (es : List (SinkAction τ κ))
    (hdrained : (final (step attributed) s es).drains d = .returned .drained) :
    (final (step attributed) s es).Records t := by
  have hstart : Drain t d s := by
    refine ⟨h.covered hidle hreturned, fun hstage => ?_, fun hstage => ?_⟩
    · rw [hidle] at hstage
      cases hstage
    · rw [hidle] at hstage
      cases hstage
  have hstep : ∀ (s : AuditSink τ κ) (a : SinkAction τ κ), Drain t d s →
      Drain t d (s.step attributed a).2 :=
    fun s a h => step_of_move h (fun hmove => h.move hmove) a
  exact (invariant hstep hstart es).2.drained hdrained

/-- **Every offer is accounted for**: at the end of any run of offers, drains and writer,
- the count of queued lines is the lines in the channel, the slots reserved and the line being
  dequeued, and it is positive wherever it is about to go down;
- outside a pending flush an attributed record was dropped only where as many attributed lines as
  the others leave room for were outstanding;
- the offers that returned are the lines taken, the lines queued, the drop counter, the drops in the
  report being written and those in the reports that were written;
- where a drain found the records drained, every offer that had returned before it began was
  written, or counted in a drop report that was. -/
theorem every_decision_accounted (attributed : τ → Bool) (es : List (SinkAction τ κ)) :
    let run := trace (step attributed) AuditSink.new es
    let s := final (step attributed) AuditSink.new es
    (∃ slots, Counts (fun t => (s.offers t).reserves) slots ∧
      s.queued = linesOf (fun _ => true) s.channel + slots +
        (s.writer.dequeues fun _ => true).toNat) ∧
    ((∃ t, s.offers t = .unsent) ∨ (∃ t, s.writer = .dequeued t) → 0 < s.queued) ∧
    (∀ u ∈ run, ∀ t, attributed t = true → Drops u.before u.after t →
      (∀ d, .flush d ∉ u.before.channel) →
      ∃ named, Outstanding attributed u.before named ∧
        queueDepth - unattributedCeiling ≤ named) ∧
    Counts (fun t => (s.offers t).completed) (taken run + linesOf (fun _ => true) s.channel +
      s.dropped.length + s.writer.inReport + s.reported) ∧
    ∀ earlier later, es = earlier ++ later → ∀ t d,
      (final (step attributed) AuditSink.new earlier).drains d = .idle →
      (final (step attributed) AuditSink.new earlier).offers t = .returned →
      s.drains d = .returned .drained → s.Records t := by
  intro run s
  obtain ⟨hsteps, hbalanced⟩ := invariant (Balanced.step (κ := κ)) .new es
  refine ⟨?_, hbalanced.queued_pos, fun u hu t ht hdrops hflush => ?_, ?_, ?_⟩
  · obtain ⟨slots, hslots, hqueued⟩ := hbalanced.total
    simp only [Bool.and_true] at hslots
    exact ⟨slots, hslots, hqueued⟩
  · have hbefore := (hsteps u hu).1
    obtain ⟨-, hstep⟩ := step_eq_of_mem_trace _ hu
    have hcases := step_cases attributed u.before u.event
    rw [hstep] at hcases
    rcases hcases with hsame | hmove
    · rw [(Prod.mk.inj hsame).2] at hdrops
      exact absurd hdrops not_drops_self
    · exact hbefore.evicted_by_named hmove ht hdrops hflush
  · have haccounted : Accounted run s := history_final Accounted.step .new es
    unfold Accounted pending at haccounted
    rwa [← Nat.add_assoc, ← Nat.add_assoc, ← Nat.add_assoc] at haccounted
  · rintro earlier later rfl t d hidle hreturned hdrained
    have hstep : ∀ (s : AuditSink τ κ) (a : SinkAction τ κ), Waiting t d s →
        Waiting t d (s.step attributed a).2 :=
      fun s a h => step_of_move h (fun hmove => h.move hmove) a
    have hwaiting := (invariant hstep (.new t d) earlier).2
    dsimp only [s] at hdrained ⊢
    rw [final_append] at hdrained ⊢
    exact records_of_drained hwaiting hidle hreturned later hdrained

end AuditSink

end McpRe.Audit
