/-
  IbTrader.Engine.OrderLedgerTerminal

  Terminal events of the order ledger over whole runs of its public calls.

  `StepShape` says once what a call can do: stay silent, emit one progress event
  and store the entry, emit the terminal event and evict the entry, or emit the
  terminal event of an order nobody tracks.  The last shape leaves no trace in
  the ledger, and it alone lets a second event follow a terminal one.
-/

import Mathlib.Tactic.Linarith
import IbTrader.Engine.OrderLedger

namespace IbTrader.Engine.OrderLedger

open Lib

-- ============================================================================
-- What a call can do
-- ============================================================================

/-- The four things a call can do to the ledger and answer. -/
inductive StepShape (l : Ledger) (c : Call) : Ledger × List LedgerEvent → Prop
  | silent (hreg : c.isRegister = false)
      (hid : c.ibOrderId ∈ l.recentlyEvicted ∨ c.ibOrderId ∈ phantomIbOrderIds) :
      StepShape l c (l, [])
  | progress (e : LedgerEntry) (status : String) (lastQty lastPrice : Option ℚ)
      (hid : e.ibOrderId = c.ibOrderId)
      (hlive : c.isRegister = true ∨ c.ibOrderId ∉ l.recentlyEvicted) :
      StepShape l c (l.put e, [makeEvent e false status lastQty lastPrice])
  | terminal (e : LedgerEntry) (status : String) (hid : e.ibOrderId = c.ibOrderId)
      (hreg : c.isRegister = false) (hlive : c.ibOrderId ∉ l.recentlyEvicted) :
      StepShape l c (l.evict c.ibOrderId, [makeEvent e true status])
  | untracked (event : LedgerEvent) (hid : event.ibOrderId = c.ibOrderId)
      (hreg : c.isRegister = false) (hterm : event.terminal = true) (h : c.untracked l) :
      StepShape l c (l, [event])

@[simp] theorem reconciledEntry_ibOrderId (wired : Bool) (position : PositionGetter)
    (e : LedgerEntry) : (reconciledEntry wired position e).ibOrderId = e.ibOrderId := by
  unfold reconciledEntry
  split
  · rfl
  · split <;> rfl

theorem register_shape (l : Ledger) (id : String) (order : OrderMeta) (t : ℚ) (p : Option ℚ) :
    StepShape l (.register id order t p) (register l id order t p) := by
  unfold register
  split
  next existing h =>
    have hid : existing.ibOrderId = id := Ledger.ibOrderId_of_get h
    exact .progress _ _ _ _ hid (.inl rfl)
  next => exact .progress _ _ _ _ rfl (.inl rfl)

theorem recordFill_shape (l : Ledger) (id : String) (f : Fill) (order : OrderMeta) (r t : ℚ) :
    StepShape l (.recordFill id f order r t) (recordFill l id f order r t) := by
  unfold recordFill
  split
  next h => exact .silent rfl (.inl h)
  next hlive =>
    split
    next entry h =>
      have hid : entry.ibOrderId = id := Ledger.ibOrderId_of_get h
      exact .progress _ _ _ _ hid (.inr hlive)
    next =>
      split
      next hph => exact .silent rfl (.inr hph)
      next => exact .progress _ _ _ _ rfl (.inr hlive)

theorem statusOnEntry_shape {l : Ledger} {id status : String} {order : OrderMeta}
    {position : PositionGetter} {entry : LedgerEntry} (hid : entry.ibOrderId = id)
    (hlive : id ∉ l.recentlyEvicted) :
    StepShape l (.recordStatus id status order position)
      (statusOnEntry l entry status position) := by
  subst hid
  unfold statusOnEntry
  simp only
  split
  next =>
    split
    next => exact .progress _ _ _ _ rfl (.inr hlive)
    next => exact .terminal _ _ (by simp [Call.ibOrderId]) rfl hlive
  next => exact .progress _ _ _ _ rfl (.inr hlive)

theorem recordStatus_shape (l : Ledger) (id status : String) (order : OrderMeta)
    (position : PositionGetter) :
    StepShape l (.recordStatus id status order position)
      (recordStatus l id status order position) := by
  unfold recordStatus
  split
  next h => exact .silent rfl (.inl h)
  next hlive =>
    split
    next entry h => exact statusOnEntry_shape (Ledger.ibOrderId_of_get h) hlive
    next hnone =>
      split
      next hph => exact .silent rfl (.inr hph)
      next hph =>
        split
        next h => exact .untracked _ rfl rfl rfl ⟨hlive, hnone, hph, h⟩
        next => exact statusOnEntry_shape rfl hlive

/-- Every call does one of the four things. -/
theorem step_shape (l : Ledger) (c : Call) : StepShape l c (step l c) := by
  cases c with
  | register id order t p => exact register_shape l id order t p
  | recordFill id f order r t => exact recordFill_shape l id f order r t
  | recordStatus id status order position => exact recordStatus_shape l id status order position

/-- A `register` or a call about an id that is not evicted and not a phantom one
    is answered by an event. -/
theorem step_emits (l : Ledger) (c : Call) (hlive : c.ibOrderId ∉ l.recentlyEvicted)
    (hph : c.ibOrderId ∉ phantomIbOrderIds) : ∃ event, event ∈ (step l c).2 := by
  have h := step_shape l c
  revert h
  generalize step l c = r
  intro h
  cases h with
  | silent _ hid => exact (hid.elim hlive hph).elim
  | progress e status lastQty lastPrice => exact ⟨_, List.mem_singleton.mpr rfl⟩
  | terminal e status => exact ⟨_, List.mem_singleton.mpr rfl⟩
  | untracked event => exact ⟨_, List.mem_singleton.mpr rfl⟩

/-- An event names the order its call is about. -/
theorem step_event_ibOrderId {l : Ledger} {c : Call} {event : LedgerEvent}
    (h : event ∈ (step l c).2) : event.ibOrderId = c.ibOrderId := by
  have hs := step_shape l c
  revert h hs
  generalize step l c = r
  intro h hs
  cases hs with
  | silent => simp at h
  | progress e status _ _ hid => rw [List.mem_singleton.mp h]; exact hid
  | terminal e status hid => rw [List.mem_singleton.mp h]; exact hid
  | untracked event hid => rw [List.mem_singleton.mp h]; exact hid

/-- A call answers with at most one event. -/
theorem step_length_le_one (l : Ledger) (c : Call) : (step l c).2.length ≤ 1 := by
  have h := step_shape l c
  revert h
  generalize step l c = r
  intro h
  cases h <;> simp

/-- A terminal event comes from a status call, and either its order is evicted or
    nobody tracked it. -/
theorem step_terminal {l : Ledger} {c : Call} {event : LedgerEvent}
    (h : event ∈ (step l c).2) (hterm : event.terminal = true) :
    c.isRegister = false ∧
      (c.ibOrderId ∈ (step l c).1.recentlyEvicted ∨ c.untracked l) := by
  have hs := step_shape l c
  revert h hs
  generalize step l c = r
  intro h hs
  cases hs with
  | silent => simp at h
  | progress e status => rw [List.mem_singleton.mp h] at hterm; cases hterm
  | terminal e status _ hreg => exact ⟨hreg, .inl (by simp)⟩
  | untracked event _ hreg _ hun => exact ⟨hreg, .inr hun⟩

/-- An evicted order is answered by `register` only, and not with a terminal event. -/
theorem step_of_evicted {l : Ledger} {c : Call} {event : LedgerEvent}
    (hev : c.ibOrderId ∈ l.recentlyEvicted) (h : event ∈ (step l c).2) :
    c.isRegister = true ∧ event.terminal = false := by
  have hs := step_shape l c
  revert h hs
  generalize step l c = r
  intro h hs
  cases hs with
  | silent => simp at h
  | progress e status _ _ _ hlive =>
    rw [List.mem_singleton.mp h]
    exact ⟨hlive.resolve_right (· hev), rfl⟩
  | terminal e status _ _ hlive => exact (hlive hev).elim
  | untracked event _ _ _ hun =>
    cases c with
    | recordStatus => exact (hun.1 hev).elim
    | register => exact hun.elim
    | recordFill => exact hun.elim

/-- Eviction is for good: no call takes an id back out. -/
theorem step_recentlyEvicted_mono {l : Ledger} {c : Call} {id : String}
    (h : id ∈ l.recentlyEvicted) : id ∈ (step l c).1.recentlyEvicted := by
  have hs := step_shape l c
  revert hs
  generalize step l c = r
  intro hs
  cases hs with
  | silent => exact h
  | progress => simpa using h
  | terminal => simp [h]
  | untracked => exact h

/-- Only a status or fill call about an order evicts it. -/
theorem step_recentlyEvicted_inv {l : Ledger} {c : Call} {id : String}
    (h : id ∈ (step l c).1.recentlyEvicted) :
    id ∈ l.recentlyEvicted ∨ (c.ibOrderId = id ∧ c.isRegister = false) := by
  have hs := step_shape l c
  revert h hs
  generalize step l c = r
  intro h hs
  cases hs with
  | silent => exact .inl h
  | progress => exact .inl (by simpa using h)
  | terminal e status _ hreg =>
    rw [Ledger.evict_recentlyEvicted, Finset.mem_insert] at h
    exact h.symm.imp_right (fun h => ⟨h.symm, hreg⟩)
  | untracked => exact .inl h

theorem untracked_live {l : Ledger} {c : Call} (h : c.untracked l) :
    c.ibOrderId ∉ l.recentlyEvicted ∧ c.ibOrderId ∉ phantomIbOrderIds ∧
      c.isRegister = false ∧ (step l c).1 = l ∧
      ∃ event ∈ (step l c).2, event.terminal = true := by
  cases c with
  | register => exact h.elim
  | recordFill => exact h.elim
  | recordStatus id status order position =>
    obtain ⟨hlive, hnone, hph, hin, href⟩ := h
    refine ⟨hlive, hph, rfl, ?_, ?_⟩ <;>
      simp [step, recordStatus, hlive, hnone, hph, hin, href, makeUntrackedTerminal]

-- ============================================================================
-- Terminal uniqueness over a run
-- ============================================================================

/-- Every order gets at most one terminal event, and none of `record_fill` and
    `record_status` answers for an order after its terminal event. -/
structure TerminalUnique (trace : List (Call × LedgerEvent)) : Prop where
  atMostOne : ∀ id, trace.countP (fun p => p.2.terminal && p.2.ibOrderId == id) ≤ 1
  noneAfter : trace.Pairwise (fun p q =>
    p.2.terminal = true → q.2.ibOrderId = p.2.ibOrderId → q.1.isRegister = true)

/-- No fill or status call about an order follows a call that met the order
    untracked and answered with a terminal event. -/
def UntrackedIsLast (l : Ledger) (cs : List Call) : Prop :=
  ∀ pre c post, cs = pre ++ c :: post → c.untracked (machine.run l pre) →
    ∀ d ∈ post, d.ibOrderId = c.ibOrderId → d.isRegister = true

/-- The relation `TerminalUnique` needs between an event and a later one. -/
def Silences (p q : Call × LedgerEvent) : Prop :=
  p.2.terminal = true → q.2.ibOrderId = p.2.ibOrderId →
    q.1.isRegister = true ∧ q.2.terminal = false

/-- After eviction a run answers for the order from `register` only. -/
theorem trace_of_evicted {l : Ledger} {id : String} (h : id ∈ l.recentlyEvicted)
    (cs : List Call) :
    ∀ p ∈ machine.trace l cs, p.2.ibOrderId = id →
      p.1.isRegister = true ∧ p.2.terminal = false := by
  refine machine.forall_mem_trace (P := fun l => id ∈ l.recentlyEvicted) (R := fun _ => True)
    (fun s c hs _ => step_recentlyEvicted_mono hs) ?_ cs l h (fun _ _ => trivial)
  intro s c hs _ event hev hid
  refine step_of_evicted ?_ hev
  rwa [← step_event_ibOrderId hev, hid]

/-- A run without fill and status calls about an order has no terminal event of it. -/
theorem trace_of_no_record {l : Ledger} {id : String} {cs : List Call}
    (h : ∀ d ∈ cs, d.ibOrderId = id → d.isRegister = true) :
    ∀ p ∈ machine.trace l cs, p.2.ibOrderId = id →
      p.1.isRegister = true ∧ p.2.terminal = false := by
  refine machine.forall_mem_trace (P := fun _ => True)
    (R := fun d => d.ibOrderId = id → d.isRegister = true)
    (fun _ _ _ _ => trivial) ?_ cs l trivial h
  intro s c _ hc event hev hid
  have hreg : c.isRegister = true := hc (by rw [← step_event_ibOrderId hev, hid])
  refine ⟨hreg, ?_⟩
  by_contra hterm
  have := (step_terminal hev (by simpa using hterm)).1
  rw [hreg] at this
  cases this

theorem untrackedIsLast_tail {l : Ledger} {c : Call} {cs : List Call}
    (h : UntrackedIsLast l (c :: cs)) : UntrackedIsLast (step l c).1 cs := by
  intro pre d post hcs hun
  exact h (c :: pre) d post (by rw [hcs]; rfl) hun

/-- When untracked terminals are last of their order, every terminal event
    silences its order. -/
theorem trace_silences (cs : List Call) :
    ∀ l : Ledger, UntrackedIsLast l cs → (machine.trace l cs).Pairwise Silences := by
  induction cs with
  | nil => intro l _; exact List.Pairwise.nil
  | cons c cs ih =>
    intro l h
    rw [Mealy.trace_cons, List.pairwise_append]
    refine ⟨?_, ih _ (untrackedIsLast_tail h), ?_⟩
    · apply pairwise_of_length_le_one
      rw [List.length_map]
      exact step_length_le_one l c
    · intro p hp q hq hterm hid
      obtain ⟨event, hev, rfl⟩ := List.mem_map.mp hp
      rw [step_event_ibOrderId hev] at hid
      rcases (step_terminal hev hterm).2 with hevicted | hun
      · exact trace_of_evicted hevicted cs q hq hid
      · exact trace_of_no_record (h [] c cs rfl hun) q hq hid

theorem terminalUnique_of_silences {trace : List (Call × LedgerEvent)}
    (h : trace.Pairwise Silences) : TerminalUnique trace where
  atMostOne id := by
    apply countP_le_one_of_pairwise
    refine h.imp ?_
    intro p q hpq hp
    simp only [Bool.and_eq_true, beq_iff_eq] at hp
    by_cases hq : q.2.ibOrderId = id
    · simp [(hpq hp.1 (hq.trans hp.2.symm)).2]
    · simp [hq]
  noneAfter := h.imp (fun hpq hterm hid => (hpq hterm hid).1)

/-- A fill or status call about an order that is neither evicted nor a phantom one
    appears first after some calls that leave it so. -/
theorem exists_first_record {id : String} {cs : List Call} {d : Call} (hd : d ∈ cs)
    (hid : d.ibOrderId = id) (hreg : d.isRegister = false) :
    ∃ mid d' post, cs = mid ++ d' :: post ∧ d'.ibOrderId = id ∧ d'.isRegister = false ∧
      ∀ x ∈ mid, x.ibOrderId = id → x.isRegister = true := by
  induction cs with
  | nil => simp at hd
  | cons c cs ih =>
    by_cases hc : c.ibOrderId = id ∧ c.isRegister = false
    · exact ⟨[], c, cs, rfl, hc.1, hc.2, by simp⟩
    · have hdc : d ∈ cs := by
        rcases List.mem_cons.mp hd with rfl | hd
        · exact (hc ⟨hid, hreg⟩).elim
        · exact hd
      obtain ⟨mid, d', post, rfl, h1, h2, h3⟩ := ih hdc
      refine ⟨c :: mid, d', post, rfl, h1, h2, ?_⟩
      intro x hx hxid
      rcases List.mem_cons.mp hx with rfl | hx
      · by_contra hreg'
        exact hc ⟨hxid, by simpa using hreg'⟩
      · exact h3 x hx hxid

/-- Calls that are `register` for an order leave it out of the evicted ids. -/
theorem run_not_evicted {l : Ledger} {id : String} {cs : List Call}
    (hcs : ∀ x ∈ cs, x.ibOrderId = id → x.isRegister = true) (h : id ∉ l.recentlyEvicted) :
    id ∉ (machine.run l cs).recentlyEvicted := by
  refine machine.run_preserves (P := fun l => id ∉ l.recentlyEvicted)
    (R := fun x => x.ibOrderId = id → x.isRegister = true) ?_ cs l h hcs
  intro s c hs hc hev
  rcases step_recentlyEvicted_inv hev with hev | ⟨hid, hreg⟩
  · exact hs hev
  · rw [hc hid] at hreg
    cases hreg

/-- After an untracked terminal the next fill or status call about the order is
    answered again. -/
theorem untrackedIsLast_of_noneAfter {l : Ledger} {cs : List Call}
    (h : (machine.trace l cs).Pairwise (fun p q =>
      p.2.terminal = true → q.2.ibOrderId = p.2.ibOrderId → q.1.isRegister = true)) :
    UntrackedIsLast l cs := by
  intro pre c post hcs hun d hd hid
  by_contra hreg
  obtain ⟨mid, d', post', rfl, hid', hreg', hmid⟩ :=
    exists_first_record hd hid (by simpa using hreg)
  obtain ⟨hlive, hph, -, hsame, event, hev, hterm⟩ := untracked_live hun
  have hlive' : d'.ibOrderId ∉
      (machine.run (machine.next (machine.run l pre) c) mid).recentlyEvicted := by
    rw [hid']
    refine run_not_evicted hmid ?_
    show c.ibOrderId ∉ (step _ c).1.recentlyEvicted
    rwa [hsame]
  obtain ⟨event', hev'⟩ := step_emits _ d' hlive' (by rwa [hid'])
  rw [hcs] at h
  have hrel := machine.rel_of_pairwise h hev hev' hterm
    (by rw [step_event_ibOrderId hev, step_event_ibOrderId hev', hid'])
  rw [hreg'] at hrel
  cases hrel

/-- Over every run of a new ledger, terminal events are unique and final exactly
    when no fill or status call about an order follows an untracked terminal. -/
theorem terminalUnique_iff_untrackedIsLast (wired : Bool) (cs : List Call) :
    TerminalUnique (machine.trace (Ledger.init wired) cs) ↔
      UntrackedIsLast (Ledger.init wired) cs :=
  ⟨fun h => untrackedIsLast_of_noneAfter h.noneAfter,
   fun h => terminalUnique_of_silences (trace_silences cs _ h)⟩

/-- `Inactive` twice for an order nobody tracks gives it two terminal events. -/
theorem terminalUnique_fails :
    ¬ TerminalUnique (machine.trace (Ledger.init false)
      [.recordStatus "999" "Inactive" {} (fun _ _ => none),
       .recordStatus "999" "Inactive" {} (fun _ _ => none)]) := by
  intro h
  have hcount := h.atMostOne "999"
  revert hcount
  decide +kernel

end IbTrader.Engine.OrderLedger
