import Droid.Lib.Run
import Droid.Lib.Shares
import Droid.Signals.DeskFrames

/-! Several signals on one contract: whose units an exit sells. -/
namespace Droid.Signals
open Lib Paper

/-- The desk, and what each signal's own calls bought and sold of each symbol. -/
structure Floor where
  desk : Desk
  own : Shares SignalId String := Dict.empty

/-- An entry, an exit, or anything else that leaves the paper shard alone. -/
inductive FloorCall where
  | execute (env : Surroundings) (cond : Conditions) (id : SignalId) (ticket : Option Ticket)
  | close (env : Surroundings) (cond : Conditions) (id : SignalId) (req : Desk.CloseRequest)
  | other (desk : Desk)

namespace Floor

/-- The intraday quantity held of a symbol. -/
def held (f : Floor) (symbol : String) : Int := f.desk.shard.held (symbol, .intraday)

/-- What the call moved of the symbol is the signal's. -/
def credit (f : Floor) (id : SignalId) (symbol : String) (desk : Desk) : Floor where
  desk := desk
  own := f.own.move id symbol (desk.shard.held (symbol, .intraday) - f.held symbol)

def step (f : Floor) : FloorCall → Floor
  | .execute env cond id ticket =>
    let desk := (f.desk.executeSignal env cond id ticket).1
    match f.desk.entry? id ticket with
    | some (sig, _, underlying) => f.credit id (sig.contractSymbol underlying) desk
    | none => { f with desk }
  | .close env cond id req =>
    let desk := (f.desk.closeSignalPosition env cond id req).1
    match f.desk.receipt? id with
    | some (_, receipt) => f.credit id receipt.symbol desk
    | none => { f with desk }
  | .other desk => { f with desk := { desk with shard := f.desk.shard } }

def Alone (f : Floor) (id : SignalId) (symbol : String) : Prop := f.held symbol = f.own.of id symbol

/-- No exit has sold units of another signal: every signal still has what it bought and
did not sell, the position holds it, and a close for exactly that quantity sells it. -/
structure Spared (f : Floor) : Prop where
  pooled : ∀ symbol, f.held symbol = f.own.pool symbol
  nonneg : ∀ id symbol, 0 ≤ f.own.of id symbol
  closable : ∀ id symbol, 0 < f.own.of id symbol → ∃ pos,
    f.desk.shard.openPosition (symbol, .intraday) = some pos ∧ pos.side = .buy ∧
      f.own.of id symbol ≤ pos.quantity ∧
      Desk.finalCloseQty pos (some (f.own.of id symbol)) = f.own.of id symbol

/-- The calls that spare the other signals. An exit whose order goes through names a quantity
within the signal's own, unless the contract is held for this signal alone; and so is the
contract of an entry that is filled off its domain. -/
def Spares (f : Floor) : FloorCall → Prop
  | .execute _ cond id ticket => ∀ entry ∈ f.desk.entry? id ticket,
      f.desk.offDomainAnswer cond entry.1 entry.2.1 entry.2.2 = true →
        f.Alone id (entry.1.contractSymbol entry.2.2)
  | .close env cond id req => f.desk.Sells env cond id req → ∀ res ∈ f.desk.receipt? id,
      f.Alone id res.2.symbol ∨ ∃ n ∈ req.quantityToClose, n ≠ 0 ∧ n ≤ f.own.of id res.2.symbol
  | .other _ => True

instance (f : Floor) (id : SignalId) (symbol : String) : Decidable (f.Alone id symbol) :=
  inferInstanceAs (Decidable (_ = _))

instance (f : Floor) : (call : FloorCall) → Decidable (f.Spares call)
  | .execute _ _ id ticket => inferInstanceAs (Decidable (∀ entry ∈ f.desk.entry? id ticket, _ → _))
  | .close _ _ id _ => inferInstanceAs (Decidable (_ → ∀ res ∈ f.desk.receipt? id, _))
  | .other _ => inferInstanceAs (Decidable True)

/-! ### Step lemmas -/

/-- What the steps keep: the shard is tidy, and the shares add up to what is held. -/
structure Pooled (f : Floor) : Prop where
  tidy : f.desk.shard.Tidy
  pooled : ∀ symbol, f.held symbol = f.own.pool symbol

theorem Pooled.credit {f : Floor} (h : f.Pooled) (id : SignalId) {symbol : String} {desk : Desk}
    (ht : desk.shard.Tidy)
    (hother : ∀ k, k ≠ (symbol, ProductType.intraday) → desk.shard.held k = f.desk.shard.held k) :
    (f.credit id symbol desk).Pooled := by
  refine ⟨ht, fun s => ?_⟩
  rw [Floor.credit]
  rw [Shares.pool_move, ← h.pooled s]
  by_cases hs : s = symbol
  · subst hs
    rw [if_pos rfl, add_sub_cancel]
    rfl
  · rw [if_neg hs, add_zero]
    exact hother _ fun he => hs (congrArg Prod.fst he)

/-- With no share below zero the shares can be closed one by one. -/
theorem Pooled.spared {f : Floor} (h : f.Pooled) (hn : ∀ id symbol, 0 ≤ f.own.of id symbol) : f.Spared := by
  refine ⟨h.pooled, hn, fun id symbol hpos => ?_⟩
  have hle := Shares.of_le_pool hn id symbol
  rw [← h.pooled symbol] at hle
  obtain ⟨pos, hopen, -, hside, hq⟩ := h.tidy.long (lt_of_lt_of_le hpos hle)
  have hqle : f.own.of id symbol ≤ pos.quantity := by
    rw [hq]
    exact hle
  refine ⟨pos, hopen, hside, hqle, ?_⟩
  have hne : f.own.of id symbol ≠ 0 := by omega
  simp [Desk.finalCloseQty, Option.filter, hne, hqle]

/-- The quantity that a close chooses is within a share of the position exactly when the
asked one is, or the share is the position. -/
theorem finalCloseQty_le_iff {pos : VirtualPosition} {share : Int} (hle : share ≤ pos.quantity)
    (q : Option Int) : Desk.finalCloseQty pos q ≤ share ↔
      pos.quantity = share ∨ ∃ n ∈ q, n ≠ 0 ∧ n ≤ share := by
  rw [Desk.finalCloseQty]
  cases q with
  | none =>
    simp only [Option.filter_none, Option.getD_none]
    constructor
    · intro h
      exact .inl (by omega)
    · rintro (h | ⟨n, hn, -⟩)
      · exact h.le
      · cases hn
  | some n =>
    by_cases hn : n ≠ 0 ∧ n ≤ pos.quantity
    · have hf : (some n).filter (fun n => decide (n ≠ 0 ∧ n ≤ pos.quantity)) = some n :=
        Option.filter_eq_some_iff.mpr ⟨rfl, decide_eq_true hn⟩
      rw [hf, Option.getD_some]
      constructor
      · intro h
        exact .inr ⟨n, rfl, hn.1, h⟩
      · rintro (h | ⟨m, hm, -, hle'⟩)
        · rw [← h]
          exact hn.2
        · cases hm
          exact hle'
    · have hf : (some n).filter (fun n => decide (n ≠ 0 ∧ n ≤ pos.quantity)) = none :=
        Option.filter_eq_none_iff.mpr fun m hm => by
          cases hm
          simpa using hn
      rw [hf, Option.getD_none]
      constructor
      · intro h
        exact .inl (by omega)
      · rintro (h | ⟨m, hm, hm0, hle'⟩)
        · exact h.le
        · cases hm
          exact absurd ⟨hm0, hle'.trans hle⟩ hn

/-- After a call that moved one symbol on behalf of one signal, only its share can be below zero. -/
theorem credit_nonneg {f : Floor} (hn : ∀ id symbol, 0 ≤ f.own.of id symbol) (id : SignalId)
    (symbol : String) (desk : Desk) :
    (∀ x s, 0 ≤ (f.credit id symbol desk).own.of x s) ↔
      0 ≤ f.own.of id symbol + (desk.shard.held (symbol, .intraday) - f.held symbol) := by
  have hof := Shares.of_move f.own id symbol (desk.shard.held (symbol, .intraday) - f.held symbol)
  constructor
  · intro h
    have hself := h id symbol
    unfold credit at hself
    rw [hof, if_pos ⟨rfl, rfl⟩] at hself
    exact hself
  · intro h x s
    rw [credit]
    rw [hof]
    split
    · rename_i heq
      rw [heq.1, heq.2]
      exact h
    · rw [add_zero]
      exact hn x s

/-- Pooled, and no share below zero. -/
structure Fair (f : Floor) : Prop extends Pooled f where
  nonneg : ∀ id symbol, 0 ≤ f.own.of id symbol

/-- A close keeps the shares fair exactly when the call is one that spares the others. -/
theorem close_fair_iff {f : Floor} (h : f.Fair) (env : Surroundings) (cond : Conditions) (id : SignalId)
    (req : Desk.CloseRequest) :
    (f.step (.close env cond id req)).Fair ↔ f.Spares (.close env cond id req) := by
  obtain ⟨htidy, hheld⟩ := Desk.close_held env cond h.tidy id req
  unfold step
  simp only
  cases hreceipt : f.desk.receipt? id with
  | none =>
    rcases hheld with ⟨hidle, hsame⟩ | ⟨sig, receipt, pos, -, hr, -⟩
    · exact iff_of_true ⟨⟨htidy, fun s => (hsame _).trans (h.pooled s)⟩, h.nonneg⟩ fun hs => absurd hs hidle
    · cases hreceipt.symm.trans hr
  | some res =>
    obtain ⟨sig, receipt⟩ := res
    simp only
    rcases hheld with ⟨hidle, hsame⟩ | ⟨sig', receipt', pos, hsells, hr, hpos, hmoved⟩
    · refine iff_of_true ⟨h.credit id htidy fun k _ => hsame k, ?_⟩ fun hs => absurd hs hidle
      rw [credit_nonneg h.nonneg, hsame, held, sub_self, add_zero]
      exact h.nonneg id receipt.symbol
    · cases hreceipt.symm.trans hr
      have hpooled := h.credit id htidy fun k hk => by
        have hne : ¬ Desk.exitKey receipt = k := Ne.symm hk
        rw [hmoved, if_neg hne, add_zero]
      -- the position is the pool, so it is long and covers this signal's share
      have hshare := Shares.of_le_pool h.nonneg id receipt.symbol
      rw [← h.pooled receipt.symbol] at hshare
      obtain ⟨-, hside, -, hq⟩ := h.tidy.buy hpos ((h.nonneg id receipt.symbol).trans hshare)
      have hqty : pos.quantity = f.held receipt.symbol := hq
      have hkey : Desk.exitKey receipt = (receipt.symbol, ProductType.intraday) := rfl
      have hsold : (∀ x s, 0 ≤ (f.credit id receipt.symbol
          (f.desk.closeSignalPosition env cond id req).1).own.of x s) ↔
            Desk.finalCloseQty pos req.quantityToClose ≤ f.own.of id receipt.symbol := by
        rw [credit_nonneg h.nonneg, hmoved, if_pos hkey, hside]
        simp only [OrderSide.opposite, OrderSide.mult, held]
        constructor <;> intro hle <;> omega
      rw [finalCloseQty_le_iff (hqty ▸ hshare), hqty] at hsold
      constructor
      · intro hfair _ res hres
        cases hreceipt.symm.trans hres
        exact hsold.mp hfair.nonneg
      · intro hg
        exact ⟨hpooled, hsold.mpr (hg hsells (sig, receipt) hreceipt)⟩

theorem execute_fair {f : Floor} (h : f.Fair) (env : Surroundings) (cond : Conditions) (id : SignalId)
    (ticket : Option Ticket) (hg : f.Spares (.execute env cond id ticket)) :
    (f.step (.execute env cond id ticket)).Fair := by
  obtain ⟨htidy, hheld⟩ := Desk.execute_held env cond h.tidy id ticket
  unfold step
  simp only
  cases hentry : f.desk.entry? id ticket with
  | none =>
    rcases hheld with hsame | ⟨sig, t, underlying, he, -⟩
    · exact ⟨⟨htidy, fun s => (hsame _).trans (h.pooled s)⟩, h.nonneg⟩
    · cases hentry.symm.trans he
  | some entry =>
    obtain ⟨sig, t, underlying⟩ := entry
    simp only
    have hown := h.nonneg id (sig.contractSymbol underlying)
    rcases hheld with hsame | ⟨sig', t', underlying', he, hother, hmoved⟩
    · refine ⟨h.credit id htidy fun k _ => hsame k, (credit_nonneg h.nonneg id _ _).mpr ?_⟩
      rw [hsame, held, sub_self, add_zero]
      exact hown
    · cases hentry.symm.trans he
      refine ⟨h.credit id htidy hother, (credit_nonneg h.nonneg id _ _).mpr ?_⟩
      have hkey : Desk.entryKey sig underlying = (sig.contractSymbol underlying, ProductType.intraday) := rfl
      rw [hkey] at hmoved
      rcases hmoved with hgrown | ⟨hoff, hzero⟩
      · rw [held]
        omega
      · have halone : f.held (sig.contractSymbol underlying) = f.own.of id (sig.contractSymbol underlying) :=
          hg (sig, t, underlying) hentry hoff
        rw [hzero, halone]
        omega

theorem step_fair (f : Floor) (call : FloorCall) (h : f.Fair) (hg : f.Spares call) : (f.step call).Fair := by
  cases call with
  | execute env cond id ticket => exact execute_fair h env cond id ticket hg
  | close env cond id req => exact (close_fair_iff h env cond id req).mpr hg
  | other desk => exact ⟨⟨h.tidy, h.pooled⟩, h.nonneg⟩

/-- From a flat book on, as long as every call spares the others, no exit sells units of
another signal. -/
theorem always_spared (desk : Desk) (hflat : desk.shard.positions = Dict.empty) (calls : List FloorCall)
    (hg : Guarded step Spares { desk } calls) : Always step Spared { desk } calls := by
  have hstart : Fair { desk } := by
    refine ⟨⟨fun id pos hget => ?_, fun symbol => ?_⟩, fun id symbol => ?_⟩
    · rw [hflat] at hget
      cases hget
    · simp [held, Shard.held, hflat]
    · simp
  exact (always_of_guarded step_fair hstart hg).mono fun f h => h.spared h.nonneg

/-! ### Two signals on one call option -/

def sharedSignal (id : SignalId) : SignalInstance where
  signalId := id
  underlying := "NIFTY"
  direction := .longCall
  spotPrice := 24010
  entryMin := 23990
  entryMax := 24010
  trigger := 24000
  stopLoss := 23950
  target1 := 24075
  target2 := 24150
  riskRewardT1 := 3 / 2
  riskRewardT2 := 3
  optionContract := some
    { brokerSymbol := some "NSE:NIFTY2572424000CE", strike := some 24000, optionType := some "CE"
      lotSize := some 75 }
  fsmState := .triggered
  createdAtUtc := 1753330000000
  expiresAtUtc := 1753330300000
  lastUpdatedUtc := 1753330000000

def sharedDesk : Desk where
  fsm := { signals := (Dict.empty.insert "A" (sharedSignal "A")).insert "B" (sharedSignal "B") }

def premium100 : Conditions := { market := { getQuote := fun _ => some 100 } }

def lotTicket (intentId : String) : Ticket where
  intentId := intentId
  quantity := 75
  lots := 1
  basePrice := 100
  fillPrice := 10015 / 100
  positionId := "POS-" ++ intentId
  quantity_pos := lot_pos
  fillPrice_pos := slipped_pos

/-- Both signals buy a lot, then one of them is asked to close. -/
def buyTwiceAndClose (req : Desk.CloseRequest) : List FloorCall :=
  [.execute { now := 1753330001000 } premium100 "A" (some (lotTicket "a1")),
    .execute { now := 1753330002000 } premium100 "B" (some (lotTicket "b1")),
    .close { now := 1753330003000 } premium100 "A" req]

/-- The close names the signal's own lot, and the run spares the other signal. -/
theorem own_lot_spared :
    Always step Spared { desk := sharedDesk }
      (buyTwiceAndClose { reason := "STOP_LOSS_HIT", quantityToClose := some 75 }) :=
  always_spared sharedDesk rfl _ (by decide +kernel)

/-- A stop names no quantity, and sells the other signal's lot as well. -/
theorem stop_sells_both :
    ((run step { desk := sharedDesk }
        (buyTwiceAndClose { reason := "STOP_LOSS_HIT" })).own.of "B" "NSE:NIFTY2572424000CE" = 75 ∧
      (run step { desk := sharedDesk }
        (buyTwiceAndClose { reason := "STOP_LOSS_HIT" })).held "NSE:NIFTY2572424000CE" = 0) ∧
      ¬ Always step Spared { desk := sharedDesk } (buyTwiceAndClose { reason := "STOP_LOSS_HIT" }) := by
  -- one evaluation of the run for all that is read of it
  obtain ⟨hother, hheld, hnegative⟩ :
      (run step { desk := sharedDesk }
        (buyTwiceAndClose { reason := "STOP_LOSS_HIT" })).own.of "B" "NSE:NIFTY2572424000CE" = 75 ∧
      (run step { desk := sharedDesk }
        (buyTwiceAndClose { reason := "STOP_LOSS_HIT" })).held "NSE:NIFTY2572424000CE" = 0 ∧
      ¬ 0 ≤ (run step { desk := sharedDesk }
        (buyTwiceAndClose { reason := "STOP_LOSS_HIT" })).own.of "A" "NSE:NIFTY2572424000CE" := by
    decide +kernel
  exact ⟨⟨hother, hheld⟩, fun h => hnegative ((run_of_always h).nonneg "A" "NSE:NIFTY2572424000CE")⟩

end Floor

end Droid.Signals
