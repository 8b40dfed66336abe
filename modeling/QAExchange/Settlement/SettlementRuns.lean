import QAExchange.Foundation.Runs
import QAExchange.Settlement.SettlementEngine

/-! # Settlements beside fills

Runs of the daily settlement in the steps that each takes on an account, between fills of the
same accounts and other runs.
-/

namespace QAExchange

open Foundation

inductive SettlementStage
  | waiting
  | calculated (preCalc : PreCalculatedSettlement)
  | settled (preCalc : PreCalculatedSettlement)
  | reported

namespace SettlementStage

def isWaiting : SettlementStage → Bool
  | waiting => true
  | _ => false

def isCalculated : SettlementStage → Bool
  | calculated _ => true
  | _ => false

def isReported : SettlementStage → Bool
  | reported => true
  | _ => false

end SettlementStage

/-- A call of `settle`: the account before it, the figures of its run, and the record that
the run has made of it. -/
structure SettleCall where
  number : ℕ
  accountId : String
  before : SettledAccount
  preCalc : PreCalculatedSettlement
  record : Option AccountSettlement

def SettleCall.report (number : ℕ) (accountId : String) (record : AccountSettlement)
    (call : SettleCall) : SettleCall :=
  if call.number = number ∧ call.accountId = accountId ∧ call.record = none then
    { call with record := some record }
  else call

namespace SettleCall

variable {number : ℕ} {accountId : String} {record : AccountSettlement} {call : SettleCall}

@[simp] theorem report_number : (report number accountId record call).number = call.number := by
  rw [report]
  split_ifs <;> rfl

@[simp] theorem report_accountId :
    (report number accountId record call).accountId = call.accountId := by
  rw [report]
  split_ifs <;> rfl

@[simp] theorem report_before : (report number accountId record call).before = call.before := by
  rw [report]
  split_ifs <;> rfl

@[simp] theorem report_preCalc : (report number accountId record call).preCalc = call.preCalc := by
  rw [report]
  split_ifs <;> rfl

theorem report_record_eq_some (isMade : (report number accountId record call).record = some made) :
    call.record = some made ∨
      (call.number = number ∧ call.accountId = accountId ∧ call.record = none) ∧
        made = record := by
  rw [report] at isMade
  split_ifs at isMade with here
  · exact Or.inr ⟨here, (Option.some.inj isMade).symm⟩
  · exact Or.inl isMade

theorem report_record_eq_none (missing : (report number accountId record call).record = none) :
    call.record = none ∧ ¬(call.number = number ∧ call.accountId = accountId) := by
  rw [report] at missing
  split_ifs at missing with here
  exact ⟨missing, fun same => here ⟨same.1, same.2, missing⟩⟩

end SettleCall

/-- The accounts with the runs in progress, and a history of what has been charged and
settled. -/
structure SettlementSystem where
  accounts : String → SettledAccount
  running : ℕ → Option (String → SettlementStage)
  calls : List SettleCall
  chargedCommission : String → ℚ
  realizedProfit : String → ℚ

/-- A fill of an account: what it charges and realises, and what becomes of the rest. -/
structure AccountFill where
  commission : ℚ
  closeProfit : ℚ
  outcome : SettledAccount → SettledAccount

def AccountFill.apply (fill : AccountFill) (account : SettledAccount) : SettledAccount :=
  { fill.outcome account with
    commission := account.commission + fill.commission
    closeProfit := account.closeProfit + fill.closeProfit }

inductive SettlementStep
  | fill (accountId : String) (fill : AccountFill)
  | start (number : ℕ)
  | preCalculate (number : ℕ) (accountId : String)
  | settle (number : ℕ) (accountId : String)
  | read (number : ℕ) (accountId : String) (date : String)
  | finish (number : ℕ)

def SettlementStep.number? : SettlementStep → Option ℕ
  | fill _ _ => none
  | start number | preCalculate number _ | settle number _ | read number _ _ | finish number =>
    some number

namespace SettlementSystem

def started (accounts : String → SettledAccount) : SettlementSystem where
  accounts := accounts
  running := fun _ => none
  calls := []
  chargedCommission accountId := (accounts accountId).commission
  realizedProfit accountId := (accounts accountId).closeProfit

def fill (accountId : String) (fill : AccountFill) (system : SettlementSystem) : SettlementSystem :=
  { system with
    accounts := Function.update system.accounts accountId (fill.apply (system.accounts accountId))
    chargedCommission := Function.update system.chargedCommission accountId
      (system.chargedCommission accountId + fill.commission)
    realizedProfit := Function.update system.realizedProfit accountId
      (system.realizedProfit accountId + fill.closeProfit) }

def start (engine : SettlementEngine) (number : ℕ) (system : SettlementSystem) : SettlementSystem :=
  if engine.accountIds ≠ [] ∧ (system.running number).isNone then
    { system with
      running := Function.update system.running number (some fun _ => .waiting) }
  else system

def setStage (number : ℕ) (stages : String → SettlementStage) (accountId : String)
    (stage : SettlementStage) (system : SettlementSystem) : SettlementSystem :=
  { system with
    running := Function.update system.running number
      (some (Function.update stages accountId stage)) }

/-- Phase 1: under the read lock. -/
def preCalculate (engine : SettlementEngine) (number : ℕ) (accountId : String)
    (system : SettlementSystem) : SettlementSystem :=
  match system.running number with
  | none => system
  | some stages =>
    if accountId ∈ engine.accountIds ∧ (stages accountId).isWaiting then
      system.setStage number stages accountId
        (.calculated (engine.preCalculateAccount accountId (system.accounts accountId)))
    else system

/-- Phase 2 begins when all accounts have been calculated: under the write lock. -/
def settle (engine : SettlementEngine) (number : ℕ) (accountId : String)
    (system : SettlementSystem) : SettlementSystem :=
  match system.running number with
  | none => system
  | some stages =>
    match stages accountId with
    | .calculated preCalc =>
      if engine.accountIds.any fun other => (stages other).isWaiting then system
      else
        let account := system.accounts accountId
        { system.setStage number stages accountId (.settled preCalc) with
          accounts := Function.update system.accounts accountId
            (engine.applySettlement preCalc account)
          calls := system.calls ++ [⟨number, accountId, account, preCalc, none⟩] }
    | _ => system

def read (number : ℕ) (accountId date : String) (system : SettlementSystem) : SettlementSystem :=
  match system.running number with
  | none => system
  | some stages =>
    match stages accountId with
    | .settled preCalc =>
      { system.setStage number stages accountId .reported with
        calls := system.calls.map (SettleCall.report number accountId
          (SettlementEngine.recordOf preCalc date (system.accounts accountId))) }
    | _ => system

def finish (engine : SettlementEngine) (number : ℕ) (system : SettlementSystem) :
    SettlementSystem :=
  match system.running number with
  | none => system
  | some stages =>
    if engine.accountIds.all fun accountId => (stages accountId).isReported then
      { system with running := Function.update system.running number none }
    else system

def next (engine : SettlementEngine) (system : SettlementSystem) :
    SettlementStep → SettlementSystem
  | .fill accountId fill => system.fill accountId fill
  | .start number => system.start engine number
  | .preCalculate number accountId => system.preCalculate engine number accountId
  | .settle number accountId => system.settle engine number accountId
  | .read number accountId date => system.read number accountId date
  | .finish number => system.finish engine number

def records (system : SettlementSystem) (accountId : String) : List AccountSettlement :=
  (system.calls.filterMap SettleCall.record).filter fun record => record.userId = accountId

/-- With no run in progress, the records of an account and the account itself hold all that
was charged and realised, and every record has the figures of the account that it settled. -/
def CountsEveryFill (engine : SettlementEngine) (system : SettlementSystem) : Prop :=
  (∀ number, system.running number = none) →
    (∀ accountId,
      ((system.records accountId).map AccountSettlement.commission).sum +
          (system.accounts accountId).commission = system.chargedCommission accountId ∧
        ((system.records accountId).map AccountSettlement.closeProfit).sum +
          (system.accounts accountId).closeProfit = system.realizedProfit accountId) ∧
    ∀ call ∈ system.calls, ∃ record, call.record = some record ∧
      record.userId = call.accountId ∧
      record.preBalance = call.before.balance ∧
      record.positionProfit = engine.positionProfit call.before ∧
      record.riskRatio = engine.riskRatio call.before

def Undisturbed (system : SettlementSystem) : SettlementStep → Prop
  | .fill accountId _ =>
    ∀ number stages, system.running number = some stages →
      (stages accountId).isCalculated = false
  | .settle number accountId =>
    ∀ other stages, other ≠ number → system.running other = some stages →
      (stages accountId).isCalculated = false
  | _ => True

/-! ## What every undisturbed step preserves -/

def counted (amount : PreCalculatedSettlement → ℚ) (calls : List SettleCall)
    (accountId : String) : ℚ :=
  ((calls.filter fun call => call.accountId = accountId).map fun call =>
    amount call.preCalc).sum

structure Sound (engine : SettlementEngine) (system : SettlementSystem) : Prop where
  commission_eq : ∀ accountId,
    counted PreCalculatedSettlement.commission system.calls accountId +
      (system.accounts accountId).commission = system.chargedCommission accountId
  closeProfit_eq : ∀ accountId,
    counted PreCalculatedSettlement.closeProfit system.calls accountId +
      (system.accounts accountId).closeProfit = system.realizedProfit accountId
  /-- Figures that wait for their settlement are those of the account. -/
  calculated_eq : ∀ number stages accountId preCalc, system.running number = some stages →
    stages accountId = .calculated preCalc →
      preCalc = engine.preCalculateAccount accountId (system.accounts accountId)
  member : ∀ number stages accountId, system.running number = some stages →
    (stages accountId).isWaiting = false → accountId ∈ engine.accountIds
  call_eq : ∀ call ∈ system.calls,
    call.preCalc = engine.preCalculateAccount call.accountId call.before
  record_eq : ∀ call ∈ system.calls, ∀ record, call.record = some record →
    ∃ date final, record = SettlementEngine.recordOf call.preCalc date final
  unreported : ∀ call ∈ system.calls, call.record = none →
    ∃ stages, system.running call.number = some stages ∧
      stages call.accountId = .settled call.preCalc

theorem counted_append (amount : PreCalculatedSettlement → ℚ) (calls : List SettleCall)
    (call : SettleCall) (accountId : String) :
    counted amount (calls ++ [call]) accountId = counted amount calls accountId +
      if call.accountId = accountId then amount call.preCalc else 0 := by
  rw [counted, List.filter_append, List.map_append, List.sum_append, ← counted]
  split_ifs with same
  · simp [same]
  · simp [same]

theorem counted_map_report (amount : PreCalculatedSettlement → ℚ) (number : ℕ)
    (reported : String) (record : AccountSettlement) (calls : List SettleCall)
    (accountId : String) :
    counted amount (calls.map (SettleCall.report number reported record)) accountId =
      counted amount calls accountId := by
  rw [counted, counted, List.filter_map, List.map_map]
  have filters : (fun call : SettleCall => decide (call.accountId = accountId)) ∘
      SettleCall.report number reported record = fun call : SettleCall =>
        decide (call.accountId = accountId) := by
    funext call
    simp
  rw [filters]
  congr 1
  apply List.map_congr_left
  intro call _
  exact congrArg amount SettleCall.report_preCalc

theorem sound_started (engine : SettlementEngine) (accounts : String → SettledAccount) :
    (started accounts).Sound engine where
  commission_eq _ := zero_add _
  closeProfit_eq _ := zero_add _
  calculated_eq _ _ _ _ running := nomatch running
  member _ _ _ running := nomatch running
  call_eq _ mem := nomatch mem
  record_eq _ mem := nomatch mem
  unreported _ mem := nomatch mem

variable {engine : SettlementEngine} {system : SettlementSystem}

variable {accountId : String}

theorem Sound.fill (sound : system.Sound engine) {fill : AccountFill}
    (undisturbed : Undisturbed system (.fill accountId fill)) :
    (system.fill accountId fill).Sound engine := by
  refine ⟨?_, ?_, ?_, sound.member, sound.call_eq, sound.record_eq, sound.unreported⟩
  · intro other
    have before := sound.commission_eq other
    by_cases same : other = accountId
    · rw [same] at before ⊢
      simp only [SettlementSystem.fill, Function.update_self, AccountFill.apply]
      rw [← before, add_assoc]
    · simpa only [SettlementSystem.fill, Function.update_of_ne same] using before
  · intro other
    have before := sound.closeProfit_eq other
    by_cases same : other = accountId
    · rw [same] at before ⊢
      simp only [SettlementSystem.fill, Function.update_self, AccountFill.apply]
      rw [← before, add_assoc]
    · simpa only [SettlementSystem.fill, Function.update_of_ne same] using before
  · intro number stages other preCalc running calculated
    have different : other ≠ accountId := by
      intro same
      have none := undisturbed number stages running
      rw [← same, calculated] at none
      exact nomatch none
    have unchanged : (system.fill accountId fill).accounts other = system.accounts other :=
      Function.update_of_ne different _ _
    rw [unchanged]
    exact sound.calculated_eq number stages other preCalc running calculated

theorem Sound.start (sound : system.Sound engine) (number : ℕ) :
    (system.start engine number).Sound engine := by
  rw [SettlementSystem.start]
  split_ifs with free
  · have isNone := Option.isNone_iff_eq_none.mp free.2
    refine ⟨sound.commission_eq, sound.closeProfit_eq, ?_, ?_, sound.call_eq, sound.record_eq, ?_⟩
    · intro other stages accountId preCalc running calculated
      by_cases same : other = number
      · dsimp only at running
        rw [same, Function.update_self] at running
        rw [← Option.some.inj running] at calculated
        exact nomatch calculated
      · dsimp only at running
        rw [Function.update_of_ne same] at running
        exact sound.calculated_eq other stages accountId preCalc running calculated
    · intro other stages accountId running notWaiting
      by_cases same : other = number
      · dsimp only at running
        rw [same, Function.update_self] at running
        rw [← Option.some.inj running] at notWaiting
        exact nomatch notWaiting
      · dsimp only at running
        rw [Function.update_of_ne same] at running
        exact sound.member other stages accountId running notWaiting
    · intro call mem none
      rcases sound.unreported call mem none with ⟨stages, running, settled⟩
      have different : call.number ≠ number := by
        intro same
        rw [same, isNone] at running
        exact nomatch running
      exact ⟨stages, (Function.update_of_ne different _ _).trans running, settled⟩
  · exact sound

theorem setStage_running (number : ℕ) (stages : String → SettlementStage) (accountId : String)
    (stage : SettlementStage) : (system.setStage number stages accountId stage).running =
      Function.update system.running number (some (Function.update stages accountId stage)) := rfl

variable {number other : ℕ} {stages : String → SettlementStage} {stage : SettlementStage}

theorem running_setStage
    (running : (system.setStage number stages accountId stage).running other = some found) :
    (other = number ∧ found = Function.update stages accountId stage) ∨
      (other ≠ number ∧ system.running other = some found) := by
  by_cases same : other = number
  · left
    rw [setStage_running, same, Function.update_self] at running
    exact ⟨same, (Option.some.inj running).symm⟩
  · right
    rw [setStage_running, Function.update_of_ne same] at running
    exact ⟨same, running⟩

theorem running_setStage_of_settled (current : system.running number = some stages)
    (running : system.running other = some found) (settled : found otherId = .settled preCalc)
    (apart : other = number → otherId ≠ accountId) :
    ∃ next, (system.setStage number stages accountId stage).running other = some next ∧
      next otherId = .settled preCalc := by
  by_cases same : other = number
  · have equal : found = stages := by
      rw [same, current] at running
      exact (Option.some.inj running).symm
    refine ⟨Function.update stages accountId stage, ?_, ?_⟩
    · rw [setStage_running, same, Function.update_self]
    · rw [Function.update_of_ne (apart same), ← equal]
      exact settled
  · refine ⟨found, ?_, settled⟩
    rw [setStage_running, Function.update_of_ne same]
    exact running

section

variable (sound : system.Sound engine)
include sound

theorem Sound.member_setStage (current : system.running number = some stages)
    (isMember : accountId ∈ engine.accountIds) :
    ∀ other found otherId,
      (system.setStage number stages accountId stage).running other = some found →
        (found otherId).isWaiting = false → otherId ∈ engine.accountIds := by
  intro other found otherId running notWaiting
  rcases running_setStage running with ⟨_, rfl⟩ | ⟨_, elsewhere⟩
  · by_cases same : otherId = accountId
    · rw [same]
      exact isMember
    · rw [Function.update_of_ne same] at notWaiting
      exact sound.member number stages otherId current notWaiting
  · exact sound.member other found otherId elsewhere notWaiting

theorem Sound.preCalculate (number : ℕ) (accountId : String) :
    (system.preCalculate engine number accountId).Sound engine := by
  rw [SettlementSystem.preCalculate]
  cases current : system.running number with
  | none => exact sound
  | some stages =>
    dsimp only
    split_ifs with ready
    · refine ⟨sound.commission_eq, sound.closeProfit_eq, ?_,
        sound.member_setStage current ready.1, sound.call_eq, sound.record_eq, ?_⟩
      · intro other found otherId preCalc running calculated
        rcases running_setStage running with ⟨_, rfl⟩ | ⟨_, elsewhere⟩
        · by_cases same : otherId = accountId
          · rw [same, Function.update_self] at calculated
            rw [same]
            exact (SettlementStage.calculated.inj calculated).symm
          · rw [Function.update_of_ne same] at calculated
            exact sound.calculated_eq number stages otherId preCalc current calculated
        · exact sound.calculated_eq other found otherId preCalc elsewhere calculated
      · intro call mem none
        rcases sound.unreported call mem none with ⟨found, running, settled⟩
        apply running_setStage_of_settled current running settled
        intro sameRun sameAccount
        rw [sameRun, current] at running
        rw [sameAccount, ← Option.some.inj running] at settled
        rw [settled] at ready
        exact nomatch ready.2
    · exact sound

theorem Sound.settle (undisturbed : Undisturbed system (.settle number accountId)) :
    (system.settle engine number accountId).Sound engine := by
  rw [SettlementSystem.settle]
  cases current : system.running number with
  | none => exact sound
  | some stages =>
    dsimp only
    cases stage : stages accountId with
    | calculated preCalc =>
      dsimp only
      split_ifs with waiting
      · exact sound
      · have figures := sound.calculated_eq number stages accountId preCalc current stage
        have isMember : accountId ∈ engine.accountIds := by
          apply sound.member number stages accountId current
          rw [stage]
          rfl
        refine ⟨?_, ?_, ?_, sound.member_setStage current isMember, ?_, ?_, ?_⟩
        · intro other
          have before := sound.commission_eq other
          dsimp only
          rw [counted_append]
          by_cases same : other = accountId
          · rw [same] at before ⊢
            rw [if_pos rfl, Function.update_self, figures]
            simp only [SettlementEngine.applySettlement, engine.rule.commission_settle,
              add_zero]
            exact before
          · rw [if_neg (Ne.symm same), add_zero, Function.update_of_ne same]
            exact before
        · intro other
          have before := sound.closeProfit_eq other
          dsimp only
          rw [counted_append]
          by_cases same : other = accountId
          · rw [same] at before ⊢
            rw [if_pos rfl, Function.update_self, figures]
            simp only [SettlementEngine.applySettlement, engine.rule.closeProfit_settle,
              add_zero]
            exact before
          · rw [if_neg (Ne.symm same), add_zero, Function.update_of_ne same]
            exact before
        · intro other found otherId others running calculated
          dsimp only
          rcases running_setStage running with ⟨_, rfl⟩ | ⟨different, elsewhere⟩
          · have apart : otherId ≠ accountId := by
              intro same
              rw [same, Function.update_self] at calculated
              exact nomatch calculated
            rw [Function.update_of_ne apart] at calculated ⊢
            exact sound.calculated_eq number stages otherId others current calculated
          · have apart : otherId ≠ accountId := by
              intro same
              have none := undisturbed other found different elsewhere
              rw [← same, calculated] at none
              exact nomatch none
            rw [Function.update_of_ne apart]
            exact sound.calculated_eq other found otherId others elsewhere calculated
        · intro call mem
          rcases List.mem_append.mp mem with old | new
          · exact sound.call_eq call old
          · rw [List.mem_singleton.mp new]
            exact figures
        · intro call mem record isRecord
          rcases List.mem_append.mp mem with old | new
          · exact sound.record_eq call old record isRecord
          · rw [List.mem_singleton.mp new] at isRecord
            exact nomatch isRecord
        · intro call mem none
          rcases List.mem_append.mp mem with old | new
          · rcases sound.unreported call old none with ⟨found, running, settled⟩
            apply running_setStage_of_settled current running settled
            intro sameRun sameAccount
            rw [sameRun, current] at running
            rw [sameAccount, ← Option.some.inj running, stage] at settled
            exact nomatch settled
          · rw [List.mem_singleton.mp new]
            refine ⟨Function.update stages accountId (.settled preCalc), ?_, ?_⟩
            · exact Function.update_self number _ _
            · exact Function.update_self accountId _ _
    | waiting => exact sound
    | settled preCalc => exact sound
    | reported => exact sound

theorem Sound.read (number : ℕ) (accountId date : String) :
    (system.read number accountId date).Sound engine := by
  rw [SettlementSystem.read]
  cases current : system.running number with
  | none => exact sound
  | some stages =>
    dsimp only
    cases stage : stages accountId with
    | settled preCalc =>
      have isMember : accountId ∈ engine.accountIds := by
        apply sound.member number stages accountId current
        rw [stage]
        rfl
      refine ⟨?_, ?_, ?_, sound.member_setStage current isMember, ?_, ?_, ?_⟩
      · intro other
        exact (congrArg (· + _) (counted_map_report _ _ _ _ _ _)).trans
          (sound.commission_eq other)
      · intro other
        exact (congrArg (· + _) (counted_map_report _ _ _ _ _ _)).trans
          (sound.closeProfit_eq other)
      · intro other found otherId others running calculated
        rcases running_setStage running with ⟨_, rfl⟩ | ⟨_, elsewhere⟩
        · by_cases same : otherId = accountId
          · rw [same, Function.update_self] at calculated
            exact nomatch calculated
          · rw [Function.update_of_ne same] at calculated
            exact sound.calculated_eq number stages otherId others current calculated
        · exact sound.calculated_eq other found otherId others elsewhere calculated
      · intro call mem
        rcases List.mem_map.mp mem with ⟨before, isBefore, rfl⟩
        simpa using sound.call_eq before isBefore
      · intro call mem record isRecord
        rcases List.mem_map.mp mem with ⟨before, isBefore, rfl⟩
        rw [SettleCall.report_preCalc]
        rcases SettleCall.report_record_eq_some isRecord with old | ⟨⟨run, account, none⟩, new⟩
        · exact sound.record_eq before isBefore record old
        · rcases sound.unreported before isBefore none with ⟨found, running, settled⟩
          rw [run, current] at running
          rw [account, ← Option.some.inj running, stage] at settled
          rw [new, SettlementStage.settled.inj settled]
          exact ⟨date, system.accounts accountId, rfl⟩
      · intro call mem none
        rcases List.mem_map.mp mem with ⟨before, isBefore, rfl⟩
        rcases SettleCall.report_record_eq_none none with ⟨noRecord, apart⟩
        rcases sound.unreported before isBefore noRecord with ⟨found, running, settled⟩
        rw [SettleCall.report_number, SettleCall.report_accountId, SettleCall.report_preCalc]
        apply running_setStage_of_settled current running settled
        exact fun sameRun sameAccount => apart ⟨sameRun, sameAccount⟩
    | waiting => exact sound
    | calculated preCalc => exact sound
    | reported => exact sound

theorem Sound.finish (number : ℕ) : (system.finish engine number).Sound engine := by
  rw [SettlementSystem.finish]
  cases current : system.running number with
  | none => exact sound
  | some stages =>
    dsimp only
    split_ifs with done
    · have elsewhere : ∀ other found,
          Function.update system.running number none other = some found →
            system.running other = some found := by
        intro other found running
        by_cases same : other = number
        · rw [same, Function.update_self] at running
          exact nomatch running
        · rw [Function.update_of_ne same] at running
          exact running
      refine ⟨sound.commission_eq, sound.closeProfit_eq, ?_, ?_, sound.call_eq, sound.record_eq,
        ?_⟩
      · intro other found accountId preCalc running calculated
        exact sound.calculated_eq other found accountId preCalc (elsewhere other found running)
          calculated
      · intro other found accountId running notWaiting
        exact sound.member other found accountId (elsewhere other found running) notWaiting
      · intro call mem none
        rcases sound.unreported call mem none with ⟨found, running, settled⟩
        have different : call.number ≠ number := by
          intro same
          rw [same, current] at running
          have equal : stages = found := Option.some.inj running
          have isMember : call.accountId ∈ engine.accountIds := by
            apply sound.member number stages call.accountId current
            rw [equal, settled]
            rfl
          have reported := List.all_eq_true.mp done call.accountId isMember
          rw [equal, settled] at reported
          exact nomatch reported
        exact ⟨found, (Function.update_of_ne different _ _).trans running, settled⟩
    · exact sound

theorem Sound.next {step : SettlementStep} (undisturbed : Undisturbed system step) :
    (system.next engine step).Sound engine := by
  cases step with
  | fill accountId fill => exact sound.fill undisturbed
  | start number => exact sound.start number
  | preCalculate number accountId => exact sound.preCalculate number accountId
  | settle number accountId => exact sound.settle undisturbed
  | read number accountId date => exact sound.read number accountId date
  | finish number => exact sound.finish number

end

/-- Where every settlement has its record, the records count what the settlements do. -/
theorem Sound.sum_records (sound : system.Sound engine)
    (reported : ∀ call ∈ system.calls, ∃ record, call.record = some record)
    (recorded : AccountSettlement → ℚ) (amount : PreCalculatedSettlement → ℚ)
    (same : ∀ preCalc date final, recorded (SettlementEngine.recordOf preCalc date final) =
      amount preCalc) (accountId : String) :
    ((system.records accountId).map recorded).sum = counted amount system.calls accountId := by
  have calls_eq := sound.call_eq
  have record_eq := sound.record_eq
  rw [records, counted]
  revert calls_eq record_eq reported
  generalize system.calls = calls
  intro reported calls_eq record_eq
  induction calls with
  | nil => rfl
  | cons call calls induction =>
    have rest := induction
      (fun other mem => reported other (List.mem_cons_of_mem call mem))
      (fun other mem => calls_eq other (List.mem_cons_of_mem call mem))
      (fun other mem => record_eq other (List.mem_cons_of_mem call mem))
    rcases reported call List.mem_cons_self with ⟨record, isRecord⟩
    rcases record_eq call List.mem_cons_self record isRecord with ⟨date, final, made⟩
    have userId : record.userId = call.accountId := by
      rw [made]
      change call.preCalc.accountId = call.accountId
      rw [calls_eq call List.mem_cons_self]
      rfl
    rw [List.filterMap_cons_some isRecord, List.filter_cons, List.filter_cons, userId]
    by_cases here : call.accountId = accountId
    · rw [if_pos (decide_eq_true here), if_pos (decide_eq_true here), List.map_cons,
        List.map_cons, List.sum_cons, List.sum_cons, rest, made, same]
    · rw [if_neg (by simpa using here), if_neg (by simpa using here), rest]

theorem Sound.countsEveryFill (sound : system.Sound engine) : system.CountsEveryFill engine := by
  intro idle
  have reported : ∀ call ∈ system.calls, ∃ record, call.record = some record := by
    intro call mem
    cases isRecord : call.record with
    | none =>
      rcases sound.unreported call mem isRecord with ⟨stages, running, _⟩
      rw [idle] at running
      exact nomatch running
    | some record => exact ⟨record, rfl⟩
  constructor
  · intro accountId
    constructor
    · rw [sound.sum_records reported AccountSettlement.commission
        PreCalculatedSettlement.commission (fun _ _ _ => rfl)]
      exact sound.commission_eq accountId
    · rw [sound.sum_records reported AccountSettlement.closeProfit
        PreCalculatedSettlement.closeProfit (fun _ _ _ => rfl)]
      exact sound.closeProfit_eq accountId
  · intro call mem
    rcases reported call mem with ⟨record, isRecord⟩
    rcases sound.record_eq call mem record isRecord with ⟨date, final, made⟩
    refine ⟨record, isRecord, ?_⟩
    rw [made, sound.call_eq call mem]
    exact ⟨rfl, rfl, rfl, rfl⟩

/-- In a run of undisturbed steps every fill is counted in one day, in every state reached. -/
theorem countsEveryFill_of_undisturbed (engine : SettlementEngine)
    (accounts : String → SettledAccount) (steps : List SettlementStep)
    (undisturbed : Along (fun system => system.next engine) Undisturbed steps (started accounts)) :
    ∀ first, first <+: steps →
      (first.foldl (fun system => system.next engine) (started accounts)).CountsEveryFill
        engine := by
  rintro first ⟨rest, rfl⟩
  have before := (along_append first rest (started accounts)).mp undisturbed
  have sound := foldl_along (fun system : SettlementSystem => system.Sound engine)
    (fun _ _ sound isUndisturbed => sound.next isUndisturbed) before.1
    (sound_started engine accounts)
  exact sound.countsEveryFill

/-! ### One account -/

theorem running_next_of_ne {step : SettlementStep} (different : step.number? ≠ some other) :
    (system.next engine step).running other = system.running other := by
  have apart : ∀ number, step.number? = some number → other ≠ number := by
    intro number isNumber same
    exact different (by rw [isNumber, same])
  cases step with
  | fill accountId fill => rfl
  | start number =>
    rw [next, start]
    split_ifs
    · exact Function.update_of_ne (apart number rfl) _ _
    · rfl
  | preCalculate number accountId =>
    rw [next, preCalculate]
    split
    · rfl
    · split_ifs
      · exact Function.update_of_ne (apart number rfl) _ _
      · rfl
  | settle number accountId =>
    rw [next, settle]
    split
    · rfl
    · split
      · split_ifs
        · rfl
        · exact Function.update_of_ne (apart number rfl) _ _
      · rfl
  | read number accountId date =>
    rw [next, read]
    split
    · rfl
    · split
      · exact Function.update_of_ne (apart number rfl) _ _
      · rfl
  | finish number =>
    rw [next, finish]
    split
    · rfl
    · split_ifs
      · exact Function.update_of_ne (apart number rfl) _ _
      · rfl

theorem running_foldl_of_ne {steps : List SettlementStep}
    (unused : ∀ step ∈ steps, step.number? ≠ some other) :
    (steps.foldl (fun system => system.next engine) system).running other =
      system.running other := by
  induction steps generalizing system with
  | nil => rfl
  | cons step steps induction =>
    rw [List.foldl_cons, induction fun later mem => unused later (List.mem_cons_of_mem step mem)]
    exact running_next_of_ne (unused step List.mem_cons_self)

def resetOnly : SettleRule where
  settle account := { account with commission := 0, closeProfit := 0 }
  commission_settle _ := rfl
  closeProfit_settle _ := rfl

def oneAccount : SettlementEngine where
  accountIds := ["user1"]
  settlementPrices := fun _ => none
  forceCloseThreshold := 1
  rule := resetOnly

def freshAccount : SettledAccount where
  balance := 1000
  available := 1000
  margin := 0
  closeProfit := 0
  commission := 0
  positionProfit := 0
  riskRatio := 0
  hold := []

def commissionFill : AccountFill where
  commission := 5
  closeProfit := 0
  outcome account := { account with balance := account.balance - 5 }

/-- A day with a fill before its settlement. -/
def fillThenSettle : List SettlementStep :=
  [.fill "user1" commissionFill, .start 0, .preCalculate 0 "user1", .settle 0 "user1",
    .read 0 "user1" "2025-01-02", .finish 0]

theorem fillThenSettle_undisturbed :
    Along (fun system => system.next oneAccount) Undisturbed fillThenSettle
      (started fun _ => freshAccount) := by
  refine ⟨?_, trivial, trivial, ?_, trivial, trivial, trivial⟩
  · exact fun _ _ running => nomatch running
  · intro other stages different running
    have calculating : (SettlementStep.preCalculate 0 "user1").number? ≠ some other :=
      fun same => different (Option.some.inj same).symm
    have starting : (SettlementStep.start 0).number? ≠ some other :=
      fun same => different (Option.some.inj same).symm
    rw [running_next_of_ne calculating, running_next_of_ne starting] at running
    exact nomatch running

/-- The commission of the day is in its record. -/
theorem fillThenSettle_counted : (fillThenSettle.foldl (fun system => system.next oneAccount)
      (started fun _ => freshAccount)).CountsEveryFill oneAccount :=
  countsEveryFill_of_undisturbed oneAccount _ fillThenSettle fillThenSettle_undisturbed _
    (List.prefix_refl fillThenSettle)

def fillWhileSettling : List SettlementStep :=
  [.start 0, .preCalculate 0 "user1", .fill "user1" commissionFill, .settle 0 "user1",
    .read 0 "user1" "2025-01-02", .finish 0]

/-- The commission of 5 is in no record and no longer on the account. -/
theorem fillWhileSettling_lost :
    let system := fillWhileSettling.foldl (fun system => system.next oneAccount)
      (started fun _ => freshAccount)
    system.chargedCommission "user1" = 5 ∧ (system.accounts "user1").commission = 0 ∧
      (system.records "user1").map AccountSettlement.commission = [0] ∧
      ¬system.CountsEveryFill oneAccount := by
  dsimp only
  have charged : (fillWhileSettling.foldl (fun system => system.next oneAccount)
      (started fun _ => freshAccount)).chargedCommission "user1" = 5 := by decide +kernel
  have current : ((fillWhileSettling.foldl (fun system => system.next oneAccount)
      (started fun _ => freshAccount)).accounts "user1").commission = 0 := by decide +kernel
  have recorded : ((fillWhileSettling.foldl (fun system => system.next oneAccount)
      (started fun _ => freshAccount)).records "user1").map AccountSettlement.commission =
        [0] := by decide +kernel
  refine ⟨charged, current, recorded, ?_⟩
  intro counts
  have idle : ∀ number, (fillWhileSettling.foldl (fun system => system.next oneAccount)
      (started fun _ => freshAccount)).running number = none := by
    intro number
    by_cases here : number = 0
    · rw [here]
      decide +kernel
    · apply running_foldl_of_ne
      simp [fillWhileSettling, SettlementStep.number?, Ne.symm here]
  have total := ((counts idle).1 "user1").1
  rw [recorded, current, charged] at total
  exact absurd total (by decide +kernel)

end SettlementSystem

end QAExchange
