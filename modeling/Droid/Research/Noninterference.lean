import Droid.Research.Loop

/-! What a fill at the next open sees of its own bar, and what a truncated series changes. -/
namespace Droid.Research
open Lib

section
variable (cfg : Settings)

/-- The two series agree on everything before bar `i` and on bar `i`'s open. -/
def AgreeBefore (X Y : List Bar) (i : Nat) : Prop :=
  X.take i = Y.take i ∧ X[i]?.map Bar.open? = Y[i]?.map Bar.open?

/-- What an entry decides. -/
structure Opening where
  side : PositionSide
  quantity : ℚ
  entryPrice : ℚ
  stop : Option ℚ
  target : Option ℚ
  deriving DecidableEq, Repr

def Position.opening (p : Position) : Opening := ⟨p.side, p.quantity, p.entryPrice, p.stop, p.target⟩

/-- The position that the entry phase of bar `i` opens. -/
def openedAt (bars : List Bar) (i : Nat) : Option Opening := do
  let bar ← bars[i]?
  let p ← entryFill cfg bars bar i (fillPendingExit cfg bar i (before cfg bars i)).1
  return p.opening

def queuedFor (bars : List Bar) (i : Nat) : Option PositionSide :=
  (dueEntry i (before cfg bars i)).filter (entryAllowed cfg)

def tradesBefore (m : Nat) (r : Simulation) : List Trade :=
  r.trades.filter fun t => decide (t.exitIndex < m ∧ t.exitReason ≠ .endOfData)

/-- A stop or a target is set from the ATR. -/
def UsesAtr : Prop :=
  (cfg.exits.stopMode = .atr ∧ 0 < cfg.exits.stopValue) ∨
    (cfg.exits.targetMode = .atr ∧ 0 < cfg.exits.targetValue)

/-! Equal series up to a bar give equal turns up to it. -/

variable {cfg}

private theorem getElem?_of_take {X Y : List Bar} {k : Nat} (h : X.take k = Y.take k) {j : Nat}
    (hj : j < k) : X[j]? = Y[j]? := by
  rw [← List.getElem?_take_of_lt (l := X) hj, h, List.getElem?_take_of_lt hj]

private theorem classifyRegime_congr {X Y : List Bar} {i : Nat} (h : X.take (i + 1) = Y.take (i + 1)) :
    classifyRegime X i = classifyRegime Y i := by
  have hcloses : ∀ start, start ≤ i →
      ((List.range (i - start + 1)).map fun k => X[start + k]?.bind Bar.close?) =
        (List.range (i - start + 1)).map fun k => Y[start + k]?.bind Bar.close? := by
    intro start hs
    apply List.map_congr_left
    intro k hk
    rw [getElem?_of_take h (by have := List.mem_range.mp hk; omega)]
  unfold classifyRegime
  simp only [hcloses (i + 1 - regimeLookback) (by unfold regimeLookback; omega)]

private theorem step_congr {X Y : List Bar} {i : Nat} (h : X.take (i + 1) = Y.take (i + 1))
    (hn : i + 1 < X.length ↔ i + 1 < Y.length) (s : State) : step cfg X s i = step cfg Y s i := by
  have hbar := getElem?_of_take h (Nat.lt_succ_self i)
  have hprev := getElem?_of_take h (show i - 1 < i + 1 by omega)
  have hregime := classifyRegime_congr h
  unfold step
  rw [← hbar]
  cases X[i]? with
  | none => rfl
  | some bar =>
    have hentry : fillPendingEntry cfg X bar i = fillPendingEntry cfg Y bar i := by
      funext t
      simp only [fillPendingEntry, entryFill, hprev, hregime]
    have hsignals : readSignals cfg X bar i = readSignals cfg Y bar i := by
      funext t
      simp only [readSignals, hregime, hn]
    simp only [barTurn, hentry, hsignals]

private theorem before_congr (cfg : Settings) {X Y : List Bar} {i : Nat} (h : X.take i = Y.take i) (hX : i < X.length)
    (hY : i < Y.length) : before cfg X i = before cfg Y i := by
  induction i with
  | zero => rfl
  | succ i ih =>
    have htake : X.take i = Y.take i := by
      have := congrArg (List.take i) h
      rwa [List.take_take, List.take_take, min_eq_left (by omega)] at this
    rw [before_succ, before_succ, ih htake (by omega) (by omega)]
    exact step_congr h (iff_of_true hX hY) _

/-! The opened position. -/

private theorem dueEntry_after_exit (bars : List Bar) (bar : Bar) (i : Nat) :
    dueEntry i (fillPendingExit cfg bar i (before cfg bars i)).1 = dueEntry i (before cfg bars i) := by
  have hr := before_ready cfg bars i
  cases hp : (before cfg bars i).position with
  | none => simp only [fillPendingExit, hp]
  | some p =>
    obtain ⟨-, -, hnone⟩ := hr.held p hp
    have hafter : (fillPendingExit cfg bar i (before cfg bars i)).1.pendingEntry = none := by
      unfold fillPendingExit
      rw [hp]
      cases (before cfg bars i).pendingExit with
      | none => exact hnone
      | some queued =>
        dsimp only
        split
        · cases bar.prices with
          | none => exact hnone
          | some prices => exact hnone
        · exact hnone
    have hdue : ∀ s : State, s.pendingEntry = none → dueEntry i s = none := by
      intro s hs
      rw [dueEntry, hs]
      cases s.position <;> rfl
    rw [hdue _ hafter, hdue _ hnone]

private theorem flat_of_due {bars : List Bar} {bar : Bar} {i : Nat} {side : PositionSide}
    (h : dueEntry i (before cfg bars i) = some side) :
    (fillPendingExit cfg bar i (before cfg bars i)).1 = before cfg bars i := by
  unfold dueEntry at h
  cases hp : (before cfg bars i).position with
  | none => simp only [fillPendingExit, hp]
  | some p =>
    rw [hp] at h
    cases h

private theorem openedAt_eq {bars : List Bar} {bar : Bar} {i : Nat} (hbar : bars[i]? = some bar) :
    openedAt cfg bars i =
      match queuedFor cfg bars i, bar.prices with
      | some side, some prices =>
        some (openPosition cfg side 0 none 0 none prices.o (before cfg bars i).equity bar.atr .open
          .unknown).opening
      | _, _ => none := by
  unfold openedAt queuedFor
  simp only [hbar, Option.bind_eq_bind, Option.bind_some, entryFill, dueEntry_after_exit]
  cases hd : dueEntry i (before cfg bars i) with
  | none => rfl
  | some side =>
    rw [flat_of_due hd]
    cases bar.prices with
    | none =>
      cases (Option.filter (entryAllowed cfg) (some side)) <;> rfl
    | some prices =>
      cases ha : entryAllowed cfg side with
      | true => simp [Option.filter, ha, Position.opening, openPosition]
      | false => simp [Option.filter, ha]

private theorem prices_open {bar : Bar} {prices : Prices} (h : bar.prices = some prices) :
    bar.open? = some prices.o := by
  unfold Bar.prices at h
  split at h
  · rename_i ho _ _ _
    obtain rfl := Option.some.inj h
    exact ho
  · cases h

private theorem level_congr {mode : StopMode} {value : ℚ} (h : ¬ (mode = .atr ∧ 0 < value))
    (fill : ℚ) (a b : Option ℚ) (direction : ℚ) (isStop : Bool) :
    level mode value fill a direction isStop = level mode value fill b direction isStop := by
  unfold level
  by_cases hv : value ≤ 0
  · rw [if_pos hv, if_pos hv]
  · rw [if_neg hv, if_neg hv]
    cases mode with
    | atr => exact absurd ⟨rfl, not_le.mp hv⟩ h
    | _ => rfl

private theorem level_inj {value : ℚ} (hv : 0 < value) {fill direction : ℚ} {isStop : Bool}
    {a b : Option ℚ} (h : level .atr value fill a direction isStop = level .atr value fill b direction isStop) :
    a = b := by
  have hdistance : ∀ x y : ℚ, x * value = y * value → x = y :=
    fun x y hxy => mul_right_cancel₀ hv.ne' hxy
  unfold level at h
  rw [if_neg (not_le.mpr hv), if_neg (not_le.mpr hv)] at h
  cases a with
  | none =>
    cases b with
    | none => rfl
    | some y => cases h
  | some x =>
    cases b with
    | none => cases h
    | some y =>
      have hxy := Option.some.inj h
      congr 1
      apply hdistance
      dsimp only at hxy
      split at hxy
      · split at hxy <;> linarith
      · split at hxy <;> linarith

/-- What the entry of bar `i` reads of its own bar besides the open is the same in both series: that
the bar is complete, and the ATR where a level is set from it. -/
def EntryBarAgrees (cfg : Settings) (X Y : List Bar) (i : Nat) : Prop :=
  ∀ side x y, queuedFor cfg X i = some side → X[i]? = some x → Y[i]? = some y →
    (x.prices.isSome ↔ y.prices.isSome) ∧ (x.prices.isSome → UsesAtr cfg → x.atr = y.atr)

private theorem opening_eq_iff (side : PositionSide) (price equity : ℚ) (a b : Option ℚ) :
    (openPosition cfg side 0 none 0 none price equity a .open .unknown).opening =
      (openPosition cfg side 0 none 0 none price equity b .open .unknown).opening ↔
    (UsesAtr cfg → a = b) := by
  constructor
  · intro h hatr
    have hstop := congrArg Opening.stop h
    have htarget := congrArg Opening.target h
    change level _ _ _ _ _ _ = level _ _ _ _ _ _ at hstop htarget
    rcases hatr with ⟨hm, hv⟩ | ⟨hm, hv⟩
    · rw [hm] at hstop
      exact level_inj hv hstop
    · rw [hm] at htarget
      exact level_inj hv htarget
  · intro h
    by_cases hatr : UsesAtr cfg
    · rw [h hatr]
    · obtain ⟨hs, ht⟩ := not_or.mp hatr
      simp only [openPosition, Position.opening, level_congr hs _ a b, level_congr ht _ a b]

/-- Two series that agree before bar `i` and on its open open the same position there exactly when
they agree on what the entry reads of that bar. -/
theorem openedAt_eq_iff {X Y : List Bar} {i : Nat} (hX : i < X.length) (hY : i < Y.length)
    (h : AgreeBefore X Y i) :
    openedAt cfg X i = openedAt cfg Y i ↔ EntryBarAgrees cfg X Y i := by
  have hx : X[i]? = some X[i] := List.getElem?_eq_getElem hX
  have hy : Y[i]? = some Y[i] := List.getElem?_eq_getElem hY
  have hbefore := before_congr cfg h.1 hX hY
  have hqueued : queuedFor cfg X i = queuedFor cfg Y i := by rw [queuedFor, queuedFor, hbefore]
  have hopen : X[i].open? = Y[i].open? := by
    have := h.2
    rw [hx, hy] at this
    exact Option.some.inj this
  unfold EntryBarAgrees
  rw [openedAt_eq hx, openedAt_eq hy, hqueued, hbefore, hx, hy]
  cases hside : queuedFor cfg Y i with
  | none => simp
  | some side =>
    simp only [Option.some.injEq, forall_apply_eq_imp_iff₂]
    cases hpx : X[i].prices with
    | none =>
      cases hpy : Y[i].prices with
      | none => simp [hpx]
      | some py => simp [hpx]
    | some px =>
      cases hpy : Y[i].prices with
      | none => simp [hpx]
      | some py =>
        have hpo : px.o = py.o := by
          have hpo := (prices_open hpx).symm.trans (hopen.trans (prices_open hpy))
          exact Option.some.inj hpo
        rw [Option.some.injEq, hpo, opening_eq_iff]
        simp [hpx]

/-! Truncation. -/

private theorem closeAtEnd_trades (cfg : Settings) (bars : List Bar) (s : State) :
    ∃ forced, (closeAtEnd cfg bars s).trades = s.trades ++ forced ∧
      ∀ u ∈ forced, u.exitReason = .endOfData := by
  unfold closeAtEnd
  split
  · split
    · refine ⟨[_], rfl, ?_⟩
      intro u hu
      rw [List.mem_singleton.mp hu]
      rfl
    · exact ⟨[], by simp, by simp⟩
  · exact ⟨[], by simp, by simp⟩

private theorem tradesBefore_eq (bars : List Bar) {m : Nat} (h : m ≤ bars.length) :
    tradesBefore m (simulate cfg bars) =
      (numbered (before cfg bars m).trades).filter
        fun t => decide (t.exitIndex < m ∧ t.exitReason ≠ .endOfData) := by
  obtain ⟨new, hnew, hlate⟩ := before_extends cfg bars h
  obtain ⟨forced, hforced, hreason⟩ := closeAtEnd_trades cfg bars (before cfg bars bars.length)
  unfold tradesBefore simulate
  simp only [hforced, hnew, numbered, List.append_assoc, List.mapIdx_append, List.filter_append]
  rw [List.append_right_eq_self, List.append_eq_nil_iff]
  constructor
  · rw [List.filter_eq_nil_iff]
    intro t ht
    obtain ⟨k, hk, rfl⟩ := List.mem_mapIdx.mp ht
    have := hlate _ (List.getElem_mem hk)
    simp only [decide_eq_true_eq, not_and]
    omega
  · rw [List.filter_eq_nil_iff]
    intro t ht
    obtain ⟨k, hk, rfl⟩ := List.mem_mapIdx.mp ht
    have := hreason _ (List.getElem_mem hk)
    simp [this]

/-- Cutting the series after bar `m` leaves the trades closed before it. -/
theorem tradesBefore_truncated (bars : List Bar) (m : Nat) :
    tradesBefore m (simulate cfg (bars.take (m + 1))) = tradesBefore m (simulate cfg bars) := by
  rcases Nat.lt_or_ge m bars.length with hm | hm
  · have hlen : (bars.take (m + 1)).length = m + 1 := by rw [List.length_take]; omega
    have htake : (bars.take (m + 1)).take m = bars.take m := by
      rw [List.take_take, min_eq_left (Nat.le_succ m)]
    rw [tradesBefore_eq bars hm.le, tradesBefore_eq _ (by omega),
      before_congr cfg (X := bars.take (m + 1)) htake (by omega) hm]
  · rw [List.take_of_length_le (by omega)]

end

/-- The backtest has no look-ahead exactly where a due entry reads nothing of its own bar but the
open: the truncation law holds throughout. -/
theorem no_lookahead_iff (cfg : Settings) (X Y : List Bar) (i m : Nat) :
    ((cfg.execution.entryFill = .nextOpen → i < X.length → i < Y.length → AgreeBefore X Y i →
        openedAt cfg X i = openedAt cfg Y i) ∧
      tradesBefore m (simulate cfg (X.take (m + 1))) = tradesBefore m (simulate cfg X)) ↔
      (cfg.execution.entryFill = .nextOpen → i < X.length → i < Y.length → AgreeBefore X Y i →
        EntryBarAgrees cfg X Y i) := by
  constructor
  · rintro ⟨h, -⟩ hfill hX hY hagree
    exact (openedAt_eq_iff hX hY hagree).mp (h hfill hX hY hagree)
  · intro h
    exact ⟨fun hfill hX hY hagree => (openedAt_eq_iff hX hY hagree).mpr (h hfill hX hY hagree),
      tradesBefore_truncated X m⟩

/-! The stop set from the bar that it is about to trade. -/

def atrStop : Settings where
  exits := { stopMode := .atr, stopValue := 2 }

def signalThen (atr : ℚ) : List Bar :=
  [{ open? := some 100, high? := some 101, low? := some 99, close? := some 100, longSignal := true,
     atr := some 1 },
   { open? := some 100, high? := some 101, low? := some 99, close? := some 100, atr := some atr }]

theorem atr_stop_reads_ahead :
    AgreeBefore (signalThen 1) (signalThen 5) 1 ∧
      openedAt atrStop (signalThen 1) 1 ≠ openedAt atrStop (signalThen 5) 1 := by
  refine ⟨⟨rfl, rfl⟩, ?_⟩
  decide +kernel

end Droid.Research
