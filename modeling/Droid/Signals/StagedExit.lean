import Droid.Lib.Run
import Droid.Signals.EntryTurn
import Droid.Signals.ExitTurns

/-! Runs of price updates: when every call of the tracker leaves reconciler and paper
position of a signal that is the only holder of its contract in agreement. -/
namespace Droid.Signals
open Lib Paper

namespace Desk
variable {id : SignalId} {symbol : String} {d d' : Desk}

def OwnTurn (tick : Tick) (d : Desk) (id : SignalId) (sig : SignalInstance) : TurnKind → Prop
  | .entry => tick.paperEligible = true → d.EntersFresh tick.cond id tick.ticket
  | .target1 => d.SellsAsBooked tick id sig
  | .final target => d.ReconcilesAsSold tick id sig target
  | .skip | .fullyBooked | .breakeven => True

/-- The condition on a turn: other signals keep away from the contract. -/
def Meets (id : SignalId) (symbol : String) (tick : Tick) (d : Desk) (x : SignalId) : Prop :=
  ∀ sig ∈ d.signal? x, if x = id then d.OwnTurn tick id sig (turnOf tick sig) else Avoids symbol sig

instance (tick : Tick) (d : Desk) (id : SignalId) (sig : SignalInstance) :
    (kind : TurnKind) → Decidable (OwnTurn tick d id sig kind)
  | .entry => inferInstanceAs (Decidable (_ → d.EntersFresh tick.cond id tick.ticket))
  | .target1 => inferInstanceAs (Decidable (d.SellsAsBooked tick id sig))
  | .final target => inferInstanceAs (Decidable (d.ReconcilesAsSold tick id sig target))
  | .skip | .fullyBooked | .breakeven => inferInstanceAs (Decidable True)

instance (id : SignalId) (symbol : String) (tick : Tick) (d : Desk) (x : SignalId) :
    Decidable (Meets id symbol tick d x) :=
  inferInstanceAs (Decidable (∀ sig ∈ d.signal? x, if x = id then _ else Avoids symbol sig))

/-! ### Turns -/

theorem evaluateTick_cases {sig : SignalInstance} {price : ℚ} {ts : Int} {target : SignalFsmState}
    (h : evaluateTick sig price ts = some (.enter target)) :
    target ∈ finalStates ∨ target = .target1Hit ∧ sig.fsmState = .confirmed := by
  unfold evaluateTick at h
  simp only at h
  split_ifs at h <;> cases h
  all_goals first | exact .inl (by decide) | exact .inr ⟨rfl, by assumption⟩

/-- What a swept or evaluated signal is turned to. -/
theorem action_cases {tick : Tick} {sig : SignalInstance} {target : SignalFsmState}
    (h : (if sig.preEmpted then some (.enter sig.fsmState) else evaluateTick sig tick.price tick.ts) =
      some (.enter target)) :
    target ∈ finalStates ∨ target = .target1Hit ∧ sig.fsmState = .confirmed := by
  by_cases hswept : sig.preEmpted = true
  · rw [if_pos hswept] at h
    cases h
    have hstate := (of_decide_eq_true hswept).1
    simp only [List.mem_cons, List.not_mem_nil, or_false] at hstate
    rcases hstate with heq | heq
    · rw [heq]
      exact .inl (by decide)
    · rw [heq]
      exact .inl (by decide)
  · rw [if_neg hswept] at h
    exact evaluateTick_cases h

def TurnFits (sig : SignalInstance) : TurnKind → Prop
  | .entry => sig.fsmState ∈ [.validated, .armed]
  | .target1 => sig.fsmState = .confirmed
  | .final target => target ∈ finalStates
  | .skip | .fullyBooked | .breakeven => True

theorem turnOf_fits (tick : Tick) (sig : SignalInstance) : TurnFits sig (turnOf tick sig) := by
  rw [turnOf]
  split
  · trivial
  · split
    · trivial
    · split
      · rename_i hstate
        split
        · exact hstate
        · trivial
      · split
        · split
          · trivial
          · split
            · trivial
            · rename_i action haction
              split
              · trivial
              · split
                · trivial
                · rcases action_cases haction with hfinal | ⟨-, hconfirmed⟩
                  · exact absurd hfinal (by decide)
                  · exact hconfirmed
                · rcases action_cases haction with hfinal | ⟨heq, -⟩
                  · exact hfinal
                  · exact absurd heq (by assumption)
        · trivial

/-- A turn that meets its condition keeps the books in agreement. -/
theorem visit_steady (tick : Tick) (h : Steady id symbol d) (x : SignalId) (hg : Meets id symbol tick d x) :
    Steady id symbol (leaves (d.visit tick x)) := by
  by_cases hx : x = id
  · subst hx
    rw [visit]
    cases hsig : d.signal? x with
    | none => exact h
    | some sig =>
      have hown := hg sig hsig
      rw [if_pos rfl] at hown
      have hfits := turnOf_fits tick sig
      simp only
      cases hturn : turnOf tick sig with
      | skip => exact h
      | entry =>
        rw [hturn] at hown hfits
        exact enterPosition_steady tick h hsig hfits hown
      | fullyBooked =>
        simp only [leaves_unlessRaised]
        exact h.rests (transition_rests tick.env h.tidy x _ _ _ fun _ => by decide)
      | breakeven => exact h.rests (ratchet_rests h.tidy x tick.price)
      | target1 =>
        rw [hturn] at hown hfits
        exact takeTarget1_steady tick h hsig hfits hown
      | final target =>
        rw [hturn] at hown hfits
        exact takeFinal_steady tick h hsig hfits hown
  · refine h.rests (visit_rests tick h.tidy (Ne.symm hx) fun sig hsig => ?_)
    have hother := hg sig hsig
    rw [if_neg hx] at hother
    exact hother

/-! ### Updates -/

/-- The condition on the turns of an update, up to one that raises. -/
def TurnsMeet (id : SignalId) (symbol : String) (tick : SignalId → Tick) : List SignalId → Desk → Prop
  | [], _ => True
  | x :: xs, d => Meets id symbol (tick x) d x ∧
      match d.visit (tick x) x with
      | .ok d => TurnsMeet id symbol tick xs d
      | .error _ => True

instance decidableTurnsMeet (id : SignalId) (symbol : String) (tick : SignalId → Tick) :
    (xs : List SignalId) → (d : Desk) → Decidable (TurnsMeet id symbol tick xs d)
  | [], _ => inferInstanceAs (Decidable True)
  | x :: xs, d =>
    have : Decidable (match d.visit (tick x) x with
        | .ok d => TurnsMeet id symbol tick xs d
        | .error _ => True) :=
      match d.visit (tick x) x with
      | .ok d => decidableTurnsMeet id symbol tick xs d
      | .error _ => inferInstanceAs (Decidable True)
    inferInstanceAs (Decidable (_ ∧ _))

theorem visitAll_steady (tick : SignalId → Tick) (xs : List SignalId) (h : Steady id symbol d)
    (hg : TurnsMeet id symbol tick xs d) : Steady id symbol (visitAll tick xs d) := by
  induction xs generalizing d with
  | nil => exact h
  | cons x xs ih =>
    obtain ⟨hmeets, hrest⟩ := hg
    have hturn := visit_steady (tick x) h x hmeets
    rw [visitAll]
    cases hvisit : d.visit (tick x) x with
    | ok d' =>
      rw [hvisit] at hrest hturn
      exact ih hturn hrest
    | error d' =>
      rw [hvisit] at hturn
      exact hturn

/-- A price update, or anything that happens between two of them. -/
inductive DeskCall where
  | update (env : Surroundings) (underlying : String) (price : ℚ) (allowClosedMarket : Bool)
      (tick : SignalId → Tick)
  | other (desk : Desk)

def step (d : Desk) : DeskCall → Desk
  | .update env underlying price allowClosedMarket tick =>
    d.processPriceUpdate env underlying price allowClosedMarket tick
  | .other desk => desk

/-- The condition on a call. What happens between the updates leaves the signal's books alone. -/
def CallMeets (id : SignalId) (symbol : String) (d : Desk) : DeskCall → Prop
  | .update env underlying price allowClosedMarket tick =>
    ¬ ((env.marketClosed ∧ ¬ allowClosedMarket) ∨ price ≤ 0) →
      TurnsMeet id symbol (fun x => { tick x with price }) ((d.sweepExpired env).listActive underlying)
        (d.sweepExpired env)
  | .other desk => Rests id symbol d desk

instance (id : SignalId) (symbol : String) (d : Desk) (env : Surroundings) (underlying : String) (price : ℚ)
    (allowClosedMarket : Bool) (tick : SignalId → Tick) :
    Decidable (CallMeets id symbol d (.update env underlying price allowClosedMarket tick)) :=
  inferInstanceAs (Decidable (¬ _ → TurnsMeet id symbol _ _ _))

theorem step_steady (d : Desk) (call : DeskCall) (h : Steady id symbol d) (hg : CallMeets id symbol d call) :
    Steady id symbol (d.step call) := by
  cases call with
  | other desk => exact h.rests hg
  | update env underlying price allowClosedMarket tick =>
    show Steady id symbol (d.processPriceUpdate env underlying price allowClosedMarket tick)
    rw [processPriceUpdate]
    by_cases hskip : (env.marketClosed ∧ ¬ allowClosedMarket) ∨ price ≤ 0
    · rw [if_pos hskip]
      exact h
    · rw [if_neg hskip]
      exact visitAll_steady _ _ (h.rests (sweepExpired_rests env h.tidy)) (hg hskip)

/-- A signal that trades the contract and was not entered yet; nothing is held of it. -/
structure Fresh (id : SignalId) (symbol : String) (d : Desk) : Prop where
  tidy : d.shard.Tidy
  flat : d.shard.held (bookKey symbol) = 0
  unrecorded : d.reconciler.get? id = none
  signal : ∀ sig, d.signal? id = some sig → sig.paperOrder = none ∧
    ∀ underlying, validateUnderlying sig.underlying = some underlying → sig.contractSymbol underlying = symbol

theorem Fresh.steady (h : Fresh id symbol d) : Steady id symbol d := by
  refine ⟨⟨?_, fun r hr => ?_⟩, h.tidy, h.flat.ge, fun r hr => ?_, fun sig hsig => ?_⟩
  · rw [remaining]
    rw [h.unrecorded, h.flat]
    rfl
  · cases h.unrecorded.symm.trans hr
  · cases h.unrecorded.symm.trans hr
  · obtain ⟨hreceipt, hcontract⟩ := h.signal sig hsig
    refine ⟨hcontract, fun r hr => ?_, fun _ => h.flat, fun _ r hr => ?_⟩
    · cases hreceipt.symm.trans hr
    · cases h.unrecorded.symm.trans hr

/-- From a fresh signal on, as long as every call meets its condition, reconciler and paper
position agree after every call. -/
theorem always_agrees (id : SignalId) (symbol : String) (d : Desk) (hfresh : Fresh id symbol d)
    (calls : List DeskCall) (hg : Guarded step (CallMeets id symbol) d calls) :
    Always step (Agrees id symbol) d calls :=
  (always_of_guarded step_steady hfresh.steady hg).mono fun _ h => h.toAgrees

/-! ### Two lots of one call option -/

def stagedSignal : SignalInstance where
  signalId := "S"
  underlying := "NIFTY"
  direction := .longCall
  spotPrice := 23990
  entryMin := 23990
  entryMax := 24010
  trigger := 24000
  stopLoss := 23950
  target1 := 24075
  target2 := 24150
  riskRewardT1 := 3 / 2
  riskRewardT2 := 3
  optionContract := some
    { brokerSymbol := some "NSE:NIFTY2572424000CE", strike := some 24000, optionType := some "CE"
      lotSize := some 75 }
  fsmState := .armed
  createdAtUtc := 1753330000000
  expiresAtUtc := 1753330300000
  lastUpdatedUtc := 1753330000000

def stagedDesk : Desk where
  fsm := { signals := Dict.empty.insert "S" stagedSignal }

theorem stagedDesk_fresh : Fresh "S" "NSE:NIFTY2572424000CE" stagedDesk := by
  refine ⟨fun id pos h => (nomatch h), rfl, rfl, fun sig hsig => ?_⟩
  cases hsig
  exact ⟨rfl, fun underlying _ => rfl⟩

/-- A tick of the index with a mark of the chain and a quote of the broker for the option. -/
def optionTick (price : ℚ) (ts : Int) (mark quote : Option ℚ) : Tick where
  price := price
  ts := ts
  env := { now := ts, marks := { usable := fun _ => mark } }
  cond := { market := { getQuote := fun _ => quote } }
  ticket := some
    { intentId := "s1", quantity := 150, lots := 2, basePrice := 100, fillPrice := 10015 / 100
      positionId := "POS-s1", quantity_pos := by decide, fillPrice_pos := slipped_pos }

def indexUpdate (tick : Tick) : DeskCall := .update tick.env "NIFTY" tick.price false fun _ => tick

def entryTick : Tick := optionTick 24005 1753330001000 (some 100) (some 100)

/-- The first target, with a mark; the broker quotes the option, or does not. -/
def target1Tick (quote : Option ℚ) : Tick := optionTick 24080 1753330061000 (some 130) quote

/-- The desk that the first target finds, after the entry and the sweep. -/
def enteredDesk (tick : Tick) : Desk := (stagedDesk.step (indexUpdate entryTick)).sweepExpired tick.env

/-- Two lots are bought and one is sold at the first target. -/
theorem staged_agrees : Always step (Agrees "S" "NSE:NIFTY2572424000CE") stagedDesk
    [indexUpdate entryTick, indexUpdate (target1Tick (some 130))] := by
  refine always_agrees "S" "NSE:NIFTY2572424000CE" stagedDesk stagedDesk_fresh _ ⟨?_, ?_, trivial⟩
  · rw [indexUpdate]
    decide +kernel
  · intro _
    change TurnsMeet _ _ _ ((enteredDesk (target1Tick (some 130))).listActive "NIFTY")
      (enteredDesk (target1Tick (some 130)))
    rw [show (enteredDesk (target1Tick (some 130))).listActive "NIFTY" = ["S"] by decide +kernel]
    refine ⟨by decide +kernel, ?_⟩
    split <;> exact trivial

/-- The broker has no quote at the first target: the exit is rejected, the reconciler has booked. -/
theorem unsold_parts : ¬ Always step (Agrees "S" "NSE:NIFTY2572424000CE") stagedDesk
    [indexUpdate entryTick, indexUpdate (target1Tick none)] := by
  intro halways
  have hentered : Steady "S" "NSE:NIFTY2572424000CE" (stagedDesk.step (indexUpdate entryTick)) := by
    refine step_steady _ _ stagedDesk_fresh.steady ?_
    rw [indexUpdate]
    decide +kernel
  have hswept : Steady "S" "NSE:NIFTY2572424000CE" (enteredDesk (target1Tick none)) :=
    hentered.rests (sweepExpired_rests _ hentered.tidy)
  -- one evaluation of the desk for all that is read of it
  obtain ⟨hlist, hsome, hfacts, hunsold⟩ :
      (enteredDesk (target1Tick none)).listActive "NIFTY" = ["S"] ∧
      ((enteredDesk (target1Tick none)).signal? "S").isSome ∧
      (∀ sig ∈ (enteredDesk (target1Tick none)).signal? "S",
        turnOf (target1Tick none) sig = .target1 ∧ sig.fsmState = .confirmed ∧
          exitMark (target1Tick none).env.marks sig = some 130 ∧ premiumMark sig 130 = true) ∧
      ∃ record ∈ (enteredDesk (target1Tick none)).reconciler.get? "S",
        0 < record.remainingQty ∧ ¬ (enteredDesk (target1Tick none)).Sells (target1Tick none).env
          (target1Tick none).cond "S" (target1Request 130 record.t1Qty) := by
    decide +kernel
  have hend : Agrees "S" "NSE:NIFTY2572424000CE"
      (visitAll (fun _ => target1Tick none) ((enteredDesk (target1Tick none)).listActive "NIFTY")
        (enteredDesk (target1Tick none))) := run_of_always halways
  generalize enteredDesk (target1Tick none) = d at *
  obtain ⟨sig, hsig⟩ := Option.isSome_iff_exists.mp hsome
  obtain ⟨hturn, hstate, hmark, hpremium⟩ := hfacts sig hsig
  obtain ⟨record, hrecord, hopen, hnot⟩ := hunsold
  have hparts := takeTarget1_parts _ hswept hsig hstate hrecord hopen hpremium hnot
  have hvisit : d.visit (target1Tick none) "S" = d.takeTarget1 (target1Tick none) (some 130) "S" := by
    rw [visit]
    rw [hsig]
    simp only [hturn, hmark]
  rw [hlist] at hend
  unfold visitAll at hend
  rw [hvisit] at hend
  split at hend
  · rename_i hres
    rw [hres] at hparts
    exact hparts hend
  · rename_i hres
    rw [hres] at hparts
    exact hparts hend

end Desk

end Droid.Signals
