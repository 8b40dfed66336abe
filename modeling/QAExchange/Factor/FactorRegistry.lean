import Mathlib.Algebra.Order.Field.Basic
import Mathlib.Data.String.Basic
import QAExchange.Factor.WindowedOperators
import QAExchange.Foundation.KeyedRows
import QAExchange.Foundation.Runs

/-! # Definitions of factors

How factors are computed from a series of values: their definitions, the registry of the
standard ones, and the operators that take one value at a time.
-/

namespace QAExchange

open Foundation

/-! ## Definitions -/

inductive RollingFunc
  | Mean
  | Std
  | Sum
  | Min
  | Max
  | Var

inductive BinaryOpType
  | Add
  | Sub
  | Mul
  | Div

inductive FactorDef (K : Type)
  | Source (name : String)
  | Rolling (source : String) (window : ℕ) (func : RollingFunc)
  | EMA (source : String) (span : ℕ)
  | RSI (source : String) (period : ℕ)
  | MACD (source : String) (fast slow signal : ℕ)
  | Bollinger (source : String) (window : ℕ) (numStd : K)
  | BinaryOp (left right : FactorDef K) (op : BinaryOpType)
  | Ref (factorId : String)
  | PolarsExpr (exprStr : String)

structure RegisteredFactor (K : Type) where
  id : String
  name : String
  definition : FactorDef K
  description : String

structure FactorRegistry (K : Type) where
  factors : KeyedRows (RegisteredFactor.id : RegisteredFactor K → String)

namespace FactorRegistry

variable {K : Type}

def new : FactorRegistry K where
  factors := .empty

def register (id name : String) (definition : FactorDef K) (description : String)
    (registry : FactorRegistry K) : FactorRegistry K where
  factors := registry.factors.insert
    { id := id, name := name, definition := definition, description := description }

def get (id : String) (registry : FactorRegistry K) : Option (RegisteredFactor K) :=
  registry.factors.get id

def withStandardFactors [NatCast K] : FactorRegistry K :=
  new
    |>.register "ma5" "MA5" (.Rolling "close" 5 .Mean) "5日均线"
    |>.register "ma10" "MA10" (.Rolling "close" 10 .Mean) "10日均线"
    |>.register "ma20" "MA20" (.Rolling "close" 20 .Mean) "20日均线"
    |>.register "ema12" "EMA12" (.EMA "close" 12) "12日指数移动平均"
    |>.register "ema26" "EMA26" (.EMA "close" 26) "26日指数移动平均"
    |>.register "rsi14" "RSI14" (.RSI "close" 14) "14日RSI"
    |>.register "macd" "MACD" (.MACD "close" 12 26 9) "MACD(12,26,9)"
    |>.register "boll_upper" "BOLL Upper" (.Bollinger "close" 20 ((2 : ℕ) : K)) "布林带上轨"
    |>.register "volatility" "Volatility" (.Rolling "close" 20 .Std) "20日波动率"

end FactorRegistry

/-! ## Operators -/

variable {K : Type} [Field K]

structure EMA (K : Type) where
  alpha : K
  ema : Option K
  count : ℕ

namespace EMA

def new (period : ℕ) : EMA K where
  alpha := ((2 : ℕ) : K) / ((period : K) + 1)
  ema := none
  count := 0

def update (state : EMA K) (value : K) : EMA K :=
  { state with
    count := state.count + 1
    ema := some (match state.ema with
      | none => value
      | some prev => state.alpha * value + (1 - state.alpha) * prev) }

def value (state : EMA K) : Option K := state.ema

end EMA

structure RSI (K : Type) where
  period : ℕ
  prevPrice : Option K
  avgGain : K
  avgLoss : K
  count : ℕ

namespace RSI

def new (period : ℕ) : RSI K where
  period := period
  prevPrice := none
  avgGain := 0
  avgLoss := 0
  count := 0

variable [LinearOrder K]

/-- Plain averages in the first period, and Wilder's smoothing behind it. -/
def update (state : RSI K) (price : K) : RSI K :=
  match state.prevPrice with
  | none => { state with prevPrice := some price }
  | some prev =>
    let change := price - prev
    let gain := if 0 < change then change else 0
    let loss := if change < 0 then -change else 0
    let count := state.count + 1
    let n := (state.period : K)
    if count ≤ state.period then
      { state with
        count := count
        avgGain := (state.avgGain * ((count - 1 : ℕ) : K) + gain) / (count : K)
        avgLoss := (state.avgLoss * ((count - 1 : ℕ) : K) + loss) / (count : K)
        prevPrice := some price }
    else
      { state with
        count := count
        avgGain := (state.avgGain * (n - 1) + gain) / n
        avgLoss := (state.avgLoss * (n - 1) + loss) / n
        prevPrice := some price }

def value (state : RSI K) : Option K :=
  if state.count < state.period then none
  else if state.avgLoss = 0 then some ((100 : ℕ) : K)
  else
    let rs := state.avgGain / state.avgLoss
    some (((100 : ℕ) : K) - ((100 : ℕ) : K) / (1 + rs))

variable [IsStrictOrderedRing K]

structure Sound (length : ℕ) (state : RSI K) : Prop where
  period : state.period = length
  gain : 0 ≤ state.avgGain
  loss : 0 ≤ state.avgLoss

theorem Sound.update (positive : 0 < length) (state : RSI K) (price : K)
    (sound : Sound length state) : Sound length (state.update price) := by
  have mean : ∀ {average weight change count : K}, 0 ≤ average → 0 ≤ weight → 0 ≤ change →
      0 ≤ count → 0 ≤ (average * weight + change) / count :=
    fun average weight change => div_nonneg (add_nonneg (mul_nonneg average weight) change)
  have others : (0 : K) ≤ state.period - 1 := by
    rw [sound.period, sub_nonneg, ← Nat.cast_one]
    exact Nat.cast_le.mpr positive
  rw [RSI.update]
  cases state.prevPrice with
  | none => exact ⟨sound.period, sound.gain, sound.loss⟩
  | some prev =>
    have gain : (0 : K) ≤ if 0 < price - prev then price - prev else 0 := by
      split_ifs with rises
      · exact rises.le
      · exact le_rfl
    have loss : (0 : K) ≤ if price - prev < 0 then -(price - prev) else 0 := by
      split_ifs with falls
      · exact (neg_pos.mpr falls).le
      · exact le_rfl
    dsimp only
    by_cases starts : state.count + 1 ≤ state.period
    · rw [if_pos starts]
      exact ⟨sound.period, mean sound.gain (Nat.cast_nonneg _) gain (Nat.cast_nonneg _),
          mean sound.loss (Nat.cast_nonneg _) loss (Nat.cast_nonneg _)⟩
    · rw [if_neg starts]
      exact ⟨sound.period, mean sound.gain others gain (Nat.cast_nonneg _),
          mean sound.loss others loss (Nat.cast_nonneg _)⟩

/-- After any prices the index lies between 0 and 100. -/
theorem value_between (positive : 0 < length) (prices : List K)
    (isIndex : (prices.foldl RSI.update (.new length)).value = some index) :
    0 ≤ index ∧ index ≤ ((100 : ℕ) : K) := by
  have sound : Sound length (prices.foldl RSI.update (.new length)) :=
    foldl_invariant (Sound length) (Sound.update positive) prices ⟨rfl, le_rfl, le_rfl⟩
  have hundred : (0 : K) ≤ (100 : ℕ) := Nat.cast_nonneg 100
  rw [RSI.value] at isIndex
  split_ifs at isIndex
  · rw [← Option.some.inj isIndex]
    exact ⟨hundred, le_rfl⟩
  · rw [← Option.some.inj isIndex]
    have atLeast := le_add_of_nonneg_right (a := 1) (div_nonneg sound.gain sound.loss)
    exact ⟨sub_nonneg.mpr (div_le_self hundred atLeast),
      sub_le_self _ (div_nonneg hundred (zero_le_one.trans atLeast))⟩

/-- 200/3 is the index after 10, 12, 11 for the period 2. -/
theorem value_between_mixed : 0 ≤ (200 / 3 : ℚ) ∧ (200 / 3 : ℚ) ≤ ((100 : ℕ) : ℚ) :=
  value_between (by decide : 0 < 2) [10, 12, 11] (by decide +kernel)

end RSI

structure MACDValue (K : Type) where
  macd : K
  signal : K
  histogram : K

structure MACD (K : Type) where
  fastEma : EMA K
  slowEma : EMA K
  signalEma : EMA K

namespace MACD

def new (fastPeriod slowPeriod signalPeriod : ℕ) : MACD K where
  fastEma := .new fastPeriod
  slowEma := .new slowPeriod
  signalEma := .new signalPeriod

def update (state : MACD K) (price : K) : MACD K :=
  let fastEma := state.fastEma.update price
  let slowEma := state.slowEma.update price
  { fastEma := fastEma
    slowEma := slowEma
    signalEma := match fastEma.value, slowEma.value with
      | some fast, some slow => state.signalEma.update (fast - slow)
      | _, _ => state.signalEma }

def value (state : MACD K) : Option (MACDValue K) := do
  let fast ← state.fastEma.value
  let slow ← state.slowEma.value
  let signal ← state.signalEma.value
  some { macd := fast - slow, signal := signal, histogram := fast - slow - signal }

end MACD

/-- The boxes of `dyn StreamOperator`, with the parameters that a reset needs. -/
inductive StreamOperator (K : Type)
  | RollingMean (windowSize : ℕ) (inner : QAExchange.RollingMean K)
  | EMA (span : ℕ) (inner : QAExchange.EMA K)
  | RSI (period : ℕ) (inner : QAExchange.RSI K)
  | MACD (fastPeriod slowPeriod signalPeriod : ℕ) (inner : QAExchange.MACD K)

namespace StreamOperator

variable [LinearOrder K]

/-- The operator after a value, and what it gives for it. -/
def update (value : K) : StreamOperator K → StreamOperator K × K
  | .RollingMean windowSize inner =>
    let inner := inner.update value
    (.RollingMean windowSize inner, inner.value)
  | .EMA span inner =>
    let inner := inner.update value
    (.EMA span inner, inner.value.getD value)
  | .RSI period inner =>
    let inner := inner.update value
    (.RSI period inner, inner.value.getD ((50 : ℕ) : K))
  | .MACD fast slow signal inner =>
    let inner := inner.update value
    (.MACD fast slow signal inner, (inner.value.map MACDValue.macd).getD 0)

/-- The operator of a definition that `init_factor` knows. -/
def ofDef : FactorDef K → Option (StreamOperator K)
  | .Rolling _ window .Mean => some (.RollingMean window (.new window))
  | .EMA _ span => some (.EMA span (.new span))
  | .RSI _ period => some (.RSI period (.new period))
  | .MACD _ fast slow signal => some (.MACD fast slow signal (.new fast slow signal))
  | _ => none

end StreamOperator

end QAExchange
