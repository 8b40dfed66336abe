import Mathlib.Data.Set.Finite.List
import Mathlib.Data.String.Basic
import QAExchange.Factor.WindowedOperators
import QAExchange.Foundation.KeyedRows

/-! # Evaluation of the factor language

Expressions are evaluated against variables, built-in functions and factors by their names. A
call of a factor goes on with the body of that factor, in the same context.
-/

namespace QAExchange.Dsl

open Foundation

inductive BinaryOperator
  | Add
  | Sub
  | Mul
  | Div
  | Mod
  | Pow
  | Eq
  | Ne
  | Lt
  | Le
  | Gt
  | Ge
  | And
  | Or

inductive UnaryOperator
  | Neg
  | Not

inductive Literal (K : Type)
  | Integer (number : ℤ)
  | Float (number : K)
  | String (text : String)
  | Boolean (value : Bool)
  | Null

inductive Expression (K : Type)
  | Literal (literal : Dsl.Literal K)
  | Identifier (name : String)
  | BinaryOp (op : BinaryOperator) (left right : Expression K)
  | UnaryOp (op : UnaryOperator) (operand : Expression K)
  | FunctionCall (name : String) (args : List (Expression K))
  | Conditional (condition thenBranch elseBranch : Expression K)

structure FactorDef (K : Type) where
  name : String
  expr : Expression K

/-! ## ExecutionContext -/

inductive Value (K : Type)
  | Null
  | Float (number : K)
  | Integer (number : ℤ)
  | Boolean (value : Bool)
  | String (text : String)
  | Series (values : List K)

inductive ExecutionError
  | UndefinedVariable (name : String)
  | UndefinedFunction (name : String)
  | TypeError (message : String)
  | ArgumentError (message : String)
  | DivisionByZero
  | RuntimeError (message : String)

abbrev ExecutionResult (Result : Type) := Except ExecutionError Result

abbrev BuiltinFunction (K : Type) := List (Value K) → ExecutionResult (Value K)

structure ExecutionContext (K : Type) where
  variableTable : String → Option (Value K)
  factors : KeyedRows (FactorDef.name : FactorDef K → String)
  builtins : String → Option (BuiltinFunction K)

/-- The functions of `f64` that are no field operations. -/
structure FloatFunctions (K : Type) where
  sqrt : K → K
  ln : K → K
  exp : K → K
  powf : K → K → K
  rem : K → K → K

variable {K : Type} [Field K] [LinearOrder K]

namespace Value

def asFloat : Value K → Option K
  | .Float number => some number
  | .Integer number => some number
  | _ => none

omit [Field K] [LinearOrder K] in
def asBool : Value K → Option Bool
  | .Boolean value => some value
  | _ => none

/-- `as_float().ok_or(..)`. -/
def number (value : Value K) : ExecutionResult K :=
  match value.asFloat with
  | some number => .ok number
  | none => .error (.TypeError "Expected number")

def boolean (value : Value K) : ExecutionResult Bool :=
  match value.asBool with
  | some value => .ok value
  | none => .error (.TypeError "Expected boolean")

end Value

def numeric (name : String) (function : K → K) : BuiltinFunction K
  | [arg] => do
    let number ← arg.number
    .ok (.Float (function number))
  | _ => .error (.ArgumentError (name ++ " requires 1 argument"))

namespace ExecutionContext

def registerBuiltins (functions : FloatFunctions K) : String → Option (BuiltinFunction K)
  | "abs" => some (numeric "abs" fun number => |number|)
  | "sqrt" => some (numeric "sqrt" functions.sqrt)
  | "log" => some (numeric "log" functions.ln)
  | "exp" => some (numeric "exp" functions.exp)
  | "pow" => some fun
      | [base, exponent] => do
        let base ← base.number
        let exponent ← exponent.number
        .ok (.Float (functions.powf base exponent))
      | _ => .error (.ArgumentError "pow requires 2 arguments")
  | "isnull" => some fun
      | [.Null] => .ok (.Boolean true)
      | [_] => .ok (.Boolean false)
      | _ => .error (.ArgumentError "isnull requires 1 argument")
  | "fillna" => some fun
      | [.Null, other] => .ok other
      | [value, _] => .ok value
      | _ => .error (.ArgumentError "fillna requires 2 arguments")
  | _ => none

def new (functions : FloatFunctions K) : ExecutionContext K where
  variableTable _ := none
  factors := .empty
  builtins := registerBuiltins functions

def setVariable (name : String) (value : Value K) (context : ExecutionContext K) :
    ExecutionContext K :=
  { context with variableTable := Function.update context.variableTable name (some value) }

def registerFactor (definition : FactorDef K) (context : ExecutionContext K) : ExecutionContext K :=
  { context with factors := context.factors.insert definition }

end ExecutionContext

/-! ## Evaluator -/

def evalLiteral : Literal K → Value K
  | .Integer number => .Integer number
  | .Float number => .Float number
  | .String text => .String text
  | .Boolean value => .Boolean value
  | .Null => .Null

def evalIdentifier (context : ExecutionContext K) (name : String) : ExecutionResult (Value K) :=
  match context.variableTable name with
  | some value => .ok value
  | none => .error (.UndefinedVariable name)

def arithmeticOp (left right : Value K) (op : K → K → K) : ExecutionResult (Value K) := do
  let left ← left.number
  let right ← right.number
  .ok (.Float (op left right))

def comparisonOp (left right : Value K) (op : K → K → Bool) : ExecutionResult (Value K) := do
  let left ← left.number
  let right ← right.number
  .ok (.Boolean (op left right))

/-- `eval_binary_op` with the values of both sides. -/
def evalBinaryOp (functions : FloatFunctions K) (op : BinaryOperator) (left right : Value K) :
    ExecutionResult (Value K) :=
  match op with
  | .Add => arithmeticOp left right (· + ·)
  | .Sub => arithmeticOp left right (· - ·)
  | .Mul => arithmeticOp left right (· * ·)
  | .Div => do
    let divisor ← right.number
    if divisor = 0 then .error .DivisionByZero
    else arithmeticOp left right (· / ·)
  | .Mod => arithmeticOp left right functions.rem
  | .Pow => arithmeticOp left right functions.powf
  | .Eq => comparisonOp left right fun first second => withinEpsilon first second
  | .Ne => comparisonOp left right fun first second => ¬withinEpsilon first second
  | .Lt => comparisonOp left right fun first second => first < second
  | .Le => comparisonOp left right fun first second => first ≤ second
  | .Gt => comparisonOp left right fun first second => first > second
  | .Ge => comparisonOp left right fun first second => first ≥ second
  | .And => do
    let first ← left.boolean
    let second ← right.boolean
    .ok (.Boolean (first && second))
  | .Or => do
    let first ← left.boolean
    let second ← right.boolean
    .ok (.Boolean (first || second))

def evalUnaryOp (op : UnaryOperator) (operand : Value K) : ExecutionResult (Value K) :=
  match op with
  | .Neg => do
    let number ← operand.number
    .ok (.Float (-number))
  | .Not => do
    let value ← operand.boolean
    .ok (.Boolean !value)

/-- Goes on with a value, as `?` does. What has not ended yet is `none`. -/
def andThen {First Second : Type} (first : Option (ExecutionResult First))
    (next : First → Option (ExecutionResult Second)) : Option (ExecutionResult Second) :=
  match first with
  | none => none
  | some (.error error) => some (.error error)
  | some (.ok value) => next value

mutual

/-- `evaluate`, with `callee` for the bodies of the factors that are called. -/
def evaluateWith (functions : FloatFunctions K) (context : ExecutionContext K)
    (callee : Expression K → Option (ExecutionResult (Value K))) :
    Expression K → Option (ExecutionResult (Value K))
  | .Literal literal => some (.ok (evalLiteral literal))
  | .Identifier name => some (evalIdentifier context name)
  | .BinaryOp op left right =>
    andThen (evaluateWith functions context callee left) fun left =>
      andThen (evaluateWith functions context callee right) fun right =>
        some (evalBinaryOp functions op left right)
  | .UnaryOp op operand =>
    andThen (evaluateWith functions context callee operand) fun operand =>
      some (evalUnaryOp op operand)
  | .FunctionCall name args =>
    match context.builtins name with
    | some builtin =>
      andThen (evaluateArgs functions context callee args) fun args => some (builtin args)
    | none =>
      match context.factors.get name with
      | some factor => callee factor.expr
      | none => some (.error (.UndefinedFunction name))
  | .Conditional condition thenBranch elseBranch =>
    andThen (evaluateWith functions context callee condition) fun condition =>
      match condition.asBool with
      | none => some (.error (.TypeError "Condition must be boolean"))
      | some true => evaluateWith functions context callee thenBranch
      | some false => evaluateWith functions context callee elseBranch

def evaluateArgs (functions : FloatFunctions K) (context : ExecutionContext K)
    (callee : Expression K → Option (ExecutionResult (Value K))) :
    List (Expression K) → Option (ExecutionResult (List (Value K)))
  | [] => some (.ok [])
  | arg :: args =>
    andThen (evaluateWith functions context callee arg) fun value =>
      andThen (evaluateArgs functions context callee args) fun values =>
        some (.ok (value :: values))

end

/-- The evaluation, as far as at most `depth` calls of factors lie within one another. -/
def evaluate (functions : FloatFunctions K) (context : ExecutionContext K) :
    ℕ → Expression K → Option (ExecutionResult (Value K))
  | 0 => evaluateWith functions context fun _ => none
  | depth + 1 => evaluateWith functions context (evaluate functions context depth)

def Ends (functions : FloatFunctions K) (context : ExecutionContext K) (expr : Expression K) :
    Prop :=
  ∃ depth result, evaluate functions context depth expr = some result

def Gives (functions : FloatFunctions K) (context : ExecutionContext K) (expr : Expression K)
    (value : Value K) : Prop :=
  ∃ depth, evaluate functions context depth expr = some (.ok value)

section Graph

variable (gives : Expression K → Value K → Prop) (context : ExecutionContext K)

mutual

/-- The evaluation of an expression calls a factor, where `gives` says which expressions give
which values: a right operand is evaluated behind a left one that gives a value, and a branch
if the condition gives its Boolean. -/
def Calls (factor : FactorDef K) : Expression K → Prop
  | .Literal _ => False
  | .Identifier _ => False
  | .BinaryOp _ left right =>
    Calls factor left ∨ (∃ value, gives left value) ∧ Calls factor right
  | .UnaryOp _ operand => Calls factor operand
  | .FunctionCall name args =>
    match context.builtins name with
    | some _ => CallsArgs factor args
    | none => context.factors.get name = some factor
  | .Conditional condition thenBranch elseBranch =>
    Calls factor condition ∨ gives condition (.Boolean true) ∧ Calls factor thenBranch ∨
      gives condition (.Boolean false) ∧ Calls factor elseBranch

def CallsArgs (factor : FactorDef K) : List (Expression K) → Prop
  | [] => False
  | arg :: args => Calls factor arg ∨ (∃ value, gives arg value) ∧ CallsArgs factor args

end

def BodyCalls (caller factor : FactorDef K) : Prop := Calls gives context factor caller.expr

def Reaches (expr : Expression K) (factor : FactorDef K) : Prop :=
  ∃ called, Calls gives context called expr ∧
    Relation.ReflTransGen (BodyCalls gives context) called factor

def NoneCallsItself (expr : Expression K) : Prop :=
  ∀ factor, Reaches gives context expr factor →
    ¬ Relation.TransGen (BodyCalls gives context) factor factor

end Graph

/-! ## More depth -/

section Depth

variable {functions : FloatFunctions K} {context : ExecutionContext K}

theorem andThen_eq_some {First Second : Type} {first : Option (ExecutionResult First)}
    {next : First → Option (ExecutionResult Second)} {result : ExecutionResult Second}
    (equal : andThen first next = some result) :
    (∃ error, first = some (.error error) ∧ result = .error error) ∨
      ∃ value, first = some (.ok value) ∧ next value = some result := by
  match first, equal with
  | some (.error error), equal => exact Or.inl ⟨error, rfl, (Option.some.inj equal).symm⟩
  | some (.ok value), equal => exact Or.inr ⟨value, rfl, equal⟩

theorem andThen_mono {First Second : Type} {first more : Option (ExecutionResult First)}
    {next later : First → Option (ExecutionResult Second)} {result : ExecutionResult Second}
    (firstMono : ∀ found, first = some found → more = some found)
    (nextMono : ∀ value found, next value = some found → later value = some found)
    (equal : andThen first next = some result) : andThen more later = some result := by
  rcases andThen_eq_some equal with ⟨error, isError, rfl⟩ | ⟨value, isValue, rest⟩
  · rw [firstMono _ isError]
    rfl
  · rw [firstMono _ isValue]
    exact nextMono value result rest

mutual

theorem evaluateWith_mono {callee more : Expression K → Option (ExecutionResult (Value K))}
    (mono : ∀ body found, callee body = some found → more body = some found) :
    ∀ (expr : Expression K) (result : ExecutionResult (Value K)),
      evaluateWith functions context callee expr = some result →
        evaluateWith functions context more expr = some result
  | .Literal _, _, equal => equal
  | .Identifier _, _, equal => equal
  | .BinaryOp _ left right, _, equal => by
    rw [evaluateWith] at equal ⊢
    refine andThen_mono (evaluateWith_mono mono left) ?_ equal
    intro value found
    exact andThen_mono (evaluateWith_mono mono right) fun _ _ same => same
  | .UnaryOp _ operand, _, equal => by
    rw [evaluateWith] at equal ⊢
    exact andThen_mono (evaluateWith_mono mono operand) (fun _ _ same => same) equal
  | .FunctionCall name args, _, equal => by
    rw [evaluateWith] at equal ⊢
    split at equal
    · exact andThen_mono (evaluateArgs_mono mono args) (fun _ _ same => same) equal
    · split at equal
      · exact mono _ _ equal
      · exact equal
  | .Conditional condition thenBranch elseBranch, _, equal => by
    rw [evaluateWith] at equal ⊢
    refine andThen_mono (evaluateWith_mono mono condition) ?_ equal
    intro value found next
    split at next
    · exact next
    · exact evaluateWith_mono mono thenBranch _ next
    · exact evaluateWith_mono mono elseBranch _ next

theorem evaluateArgs_mono {callee more : Expression K → Option (ExecutionResult (Value K))}
    (mono : ∀ body found, callee body = some found → more body = some found) :
    ∀ (args : List (Expression K)) (result : ExecutionResult (List (Value K))),
      evaluateArgs functions context callee args = some result →
        evaluateArgs functions context more args = some result
  | [], _, equal => equal
  | arg :: args, _, equal => by
    rw [evaluateArgs] at equal ⊢
    refine andThen_mono (evaluateWith_mono mono arg) ?_ equal
    intro value found
    exact andThen_mono (evaluateArgs_mono mono args) fun _ _ same => same

end

def calleeAt (functions : FloatFunctions K) (context : ExecutionContext K) :
    ℕ → Expression K → Option (ExecutionResult (Value K))
  | 0 => fun _ => none
  | depth + 1 => evaluate functions context depth

theorem evaluate_eq (depth : ℕ) :
    evaluate functions context depth =
      evaluateWith functions context (calleeAt functions context depth) := by
  cases depth with
  | zero => rfl
  | succ depth => rfl

theorem calleeAt_mono {depth more : ℕ} (le : depth ≤ more) (body : Expression K)
    (found : ExecutionResult (Value K))
    (equal : calleeAt functions context depth body = some found) :
    calleeAt functions context more body = some found := by
  induction depth generalizing more body found with
  | zero => cases equal
  | succ depth induction =>
    cases more with
    | zero => exact absurd le (Nat.not_succ_le_zero depth)
    | succ more =>
      rw [calleeAt, evaluate_eq] at equal ⊢
      exact evaluateWith_mono (induction (Nat.le_of_succ_le_succ le)) body found equal

theorem evaluate_mono {depth more : ℕ} (le : depth ≤ more) {expr : Expression K}
    {result : ExecutionResult (Value K)}
    (equal : evaluate functions context depth expr = some result) :
    evaluate functions context more expr = some result := by
  rw [evaluate_eq] at equal ⊢
  exact evaluateWith_mono (calleeAt_mono le) expr result equal

theorem evaluate_unique {first second : ℕ} {expr : Expression K}
    {left right : ExecutionResult (Value K)}
    (isLeft : evaluate functions context first expr = some left)
    (isRight : evaluate functions context second expr = some right) : left = right :=
  Option.some.inj ((evaluate_mono (Nat.le_max_left first second) isLeft).symm.trans
    (evaluate_mono (Nat.le_max_right first second) isRight))

/-! ## What ends calls what ends -/

mutual

theorem calls_end {factor : FactorDef K} {depth : ℕ} :
    ∀ (expr : Expression K) (result : ExecutionResult (Value K)),
      evaluateWith functions context (calleeAt functions context depth) expr = some result →
        Calls (Gives functions context) context factor expr →
          ∃ less < depth, ∃ found, evaluate functions context less factor.expr = some found
  | .Literal _, _, _, calls => calls.elim
  | .Identifier _, _, _, calls => calls.elim
  | .BinaryOp _ left right, _, equal, calls => by
    rw [evaluateWith] at equal
    rw [Calls] at calls
    rcases andThen_eq_some equal with ⟨error, isError, -⟩ | ⟨value, isValue, rest⟩
    · rcases calls with calls | ⟨⟨value, more, isValue⟩, -⟩
      · exact calls_end left _ isError calls
      · rw [← evaluate_eq] at isError
        cases evaluate_unique isError isValue
    · rcases calls with calls | ⟨-, calls⟩
      · exact calls_end left _ isValue calls
      · rcases andThen_eq_some rest with ⟨error, found, -⟩ | ⟨second, found, -⟩
        · exact calls_end right _ found calls
        · exact calls_end right _ found calls
  | .UnaryOp _ operand, _, equal, calls => by
    rw [evaluateWith] at equal
    rcases andThen_eq_some equal with ⟨error, found, -⟩ | ⟨value, found, -⟩
    · exact calls_end operand _ found calls
    · exact calls_end operand _ found calls
  | .FunctionCall name args, _, equal, calls => by
    cases isBuiltin : context.builtins name with
    | some builtin =>
      simp only [evaluateWith, isBuiltin] at equal
      simp only [Calls, isBuiltin] at calls
      rcases andThen_eq_some equal with ⟨error, found, -⟩ | ⟨value, found, -⟩
      · exact callsArgs_end args _ found calls
      · exact callsArgs_end args _ found calls
    | none =>
      simp only [Calls, isBuiltin] at calls
      simp only [evaluateWith, isBuiltin, calls] at equal
      cases depth with
      | zero => cases equal
      | succ depth => exact ⟨depth, Nat.lt_succ_self depth, _, equal⟩
  | .Conditional condition thenBranch elseBranch, _, equal, calls => by
    rw [evaluateWith] at equal
    rw [Calls] at calls
    rcases calls with calls | ⟨⟨more, isTrue⟩, calls⟩ | ⟨⟨more, isFalse⟩, calls⟩
    · rcases andThen_eq_some equal with ⟨error, found, -⟩ | ⟨value, found, -⟩
      · exact calls_end condition _ found calls
      · exact calls_end condition _ found calls
    · rcases andThen_eq_some equal with ⟨error, found, -⟩ | ⟨value, found, rest⟩
      · rw [← evaluate_eq] at found
        cases evaluate_unique found isTrue
      · rw [← evaluate_eq] at found
        cases evaluate_unique found isTrue
        exact calls_end thenBranch _ rest calls
    · rcases andThen_eq_some equal with ⟨error, found, -⟩ | ⟨value, found, rest⟩
      · rw [← evaluate_eq] at found
        cases evaluate_unique found isFalse
      · rw [← evaluate_eq] at found
        cases evaluate_unique found isFalse
        exact calls_end elseBranch _ rest calls

theorem callsArgs_end {factor : FactorDef K} {depth : ℕ} :
    ∀ (args : List (Expression K)) (result : ExecutionResult (List (Value K))),
      evaluateArgs functions context (calleeAt functions context depth) args = some result →
        CallsArgs (Gives functions context) context factor args →
          ∃ less < depth, ∃ found, evaluate functions context less factor.expr = some found
  | [], _, _, calls => calls.elim
  | arg :: args, _, equal, calls => by
    rw [evaluateArgs] at equal
    rw [CallsArgs] at calls
    rcases andThen_eq_some equal with ⟨error, isError, -⟩ | ⟨value, isValue, rest⟩
    · rcases calls with calls | ⟨⟨value, more, isValue⟩, -⟩
      · exact calls_end arg _ isError calls
      · rw [← evaluate_eq] at isError
        cases evaluate_unique isError isValue
    · rcases calls with calls | ⟨-, calls⟩
      · exact calls_end arg _ isValue calls
      · rcases andThen_eq_some rest with ⟨error, found, -⟩ | ⟨second, found, -⟩
        · exact callsArgs_end args _ found calls
        · exact callsArgs_end args _ found calls

end

def Settles {Result : Type} (computed : ℕ → Option Result) (result : Result) : Prop :=
  ∃ depth, ∀ more ≥ depth, computed more = some result

theorem settles_const {Result : Type} (result : Result) : Settles (fun _ => some result) result :=
  ⟨0, fun _ _ => rfl⟩

theorem settles_andThen {First Second : Type} {first : ℕ → Option (ExecutionResult First)}
    {next : First → ℕ → Option (ExecutionResult Second)} (ends : ∃ result, Settles first result)
    (later : ∀ value, Settles first (.ok value) → ∃ result, Settles (next value) result) :
    ∃ result,
      Settles (fun depth => andThen (first depth) fun value => next value depth) result := by
  rcases ends with ⟨error | value, settles⟩
  · rcases settles with ⟨depth, isError⟩
    refine ⟨.error error, depth, ?_⟩
    intro more le
    dsimp only
    rw [isError more le]
    rfl
  · rcases later value settles with ⟨result, other, isResult⟩
    rcases settles with ⟨depth, isValue⟩
    refine ⟨result, max depth other, ?_⟩
    intro more le
    dsimp only
    rw [isValue more (le_of_max_le_left le)]
    exact isResult more (le_of_max_le_right le)

theorem gives_of_settles {expr : Expression K} {value : Value K}
    (settles : Settles (fun depth => evaluateWith functions context
      (calleeAt functions context depth) expr) (.ok value)) :
    Gives functions context expr value := by
  rcases settles with ⟨depth, isValue⟩
  refine ⟨depth, ?_⟩
  rw [evaluate_eq]
  exact isValue depth le_rfl

mutual

theorem settles_of_calls : ∀ expr : Expression K,
    (∀ factor, Calls (Gives functions context) context factor expr →
      Ends functions context factor.expr) →
      ∃ result, Settles (fun depth => evaluateWith functions context
        (calleeAt functions context depth) expr) result
  | .Literal literal, _ => ⟨_, settles_const _⟩
  | .Identifier name, _ => ⟨_, settles_const _⟩
  | .BinaryOp op left right, ends => by
    simp only [evaluateWith]
    apply settles_andThen
    · exact settles_of_calls left fun factor calls => ends factor (Or.inl calls)
    · intro value isLeft
      apply settles_andThen
      · exact settles_of_calls right fun factor calls =>
          ends factor (Or.inr ⟨⟨value, gives_of_settles isLeft⟩, calls⟩)
      · exact fun second _ => ⟨_, settles_const _⟩
  | .UnaryOp op operand, ends => by
    simp only [evaluateWith]
    apply settles_andThen
    · exact settles_of_calls operand ends
    · exact fun value _ => ⟨_, settles_const _⟩
  | .FunctionCall name args, ends => by
    cases isBuiltin : context.builtins name with
    | some builtin =>
      simp only [Calls, isBuiltin] at ends
      simp only [evaluateWith, isBuiltin]
      apply settles_andThen
      · exact settlesArgs_of_calls args ends
      · exact fun values _ => ⟨_, settles_const _⟩
    | none =>
      simp only [Calls, isBuiltin] at ends
      simp only [evaluateWith, isBuiltin]
      cases found : context.factors.get name with
      | none => exact ⟨_, settles_const _⟩
      | some factor =>
        rcases ends factor found with ⟨depth, result, equal⟩
        refine ⟨result, depth + 1, ?_⟩
        intro more le
        exact calleeAt_mono le factor.expr result equal
  | .Conditional condition thenBranch elseBranch, ends => by
    simp only [evaluateWith]
    apply settles_andThen
    · exact settles_of_calls condition fun factor calls => ends factor (Or.inl calls)
    · intro value settles
      have gives := gives_of_settles settles
      cases value with
      | Boolean isTrue =>
        cases isTrue with
        | true =>
          exact settles_of_calls thenBranch fun factor calls =>
            ends factor (Or.inr (Or.inl ⟨gives, calls⟩))
        | false =>
          exact settles_of_calls elseBranch fun factor calls =>
            ends factor (Or.inr (Or.inr ⟨gives, calls⟩))
      | _ => exact ⟨_, settles_const _⟩

theorem settlesArgs_of_calls : ∀ args : List (Expression K),
    (∀ factor, CallsArgs (Gives functions context) context factor args →
      Ends functions context factor.expr) →
      ∃ result, Settles (fun depth => evaluateArgs functions context
        (calleeAt functions context depth) args) result
  | [], _ => ⟨_, settles_const _⟩
  | arg :: args, ends => by
    simp only [evaluateArgs]
    apply settles_andThen
    · exact settles_of_calls arg fun factor calls => ends factor (Or.inl calls)
    · intro value isValue
      apply settles_andThen
      · exact settlesArgs_of_calls args fun factor calls =>
          ends factor (Or.inr ⟨⟨value, gives_of_settles isValue⟩, calls⟩)
      · exact fun values _ => ⟨_, settles_const _⟩

end

theorem ends_of_calls {expr : Expression K}
    (ends : ∀ factor, Calls (Gives functions context) context factor expr →
      Ends functions context factor.expr) : Ends functions context expr := by
  rcases settles_of_calls expr ends with ⟨result, depth, equal⟩
  refine ⟨depth, result, ?_⟩
  rw [evaluate_eq]
  exact equal depth le_rfl

theorem ends_of_reaches {expr : Expression K} {factor : FactorDef K}
    (ends : Ends functions context expr)
    (reaches : Reaches (Gives functions context) context expr factor) :
    Ends functions context factor.expr := by
  rcases reaches with ⟨called, calls, later⟩
  induction later with
  | refl =>
    rcases ends with ⟨depth, result, equal⟩
    rw [evaluate_eq] at equal
    rcases calls_end expr result equal calls with ⟨less, -, found, rest⟩
    exact ⟨less, found, rest⟩
  | tail _ calls induction =>
    rcases induction with ⟨depth, result, equal⟩
    rw [evaluate_eq] at equal
    rcases calls_end _ result equal calls with ⟨less, -, found, rest⟩
    exact ⟨less, found, rest⟩

/-- A body that is called from a body, through others or not, ends at a smaller depth. -/
theorem transGen_end {caller factor : FactorDef K}
    (calls : Relation.TransGen (BodyCalls (Gives functions context) context) caller factor)
    {depth : ℕ} (ends : ∃ result, evaluate functions context depth caller.expr = some result) :
    ∃ less < depth, ∃ found, evaluate functions context less factor.expr = some found := by
  induction calls with
  | single calls =>
    rcases ends with ⟨result, equal⟩
    rw [evaluate_eq] at equal
    exact calls_end _ result equal calls
  | tail _ calls induction =>
    rcases induction with ⟨less, isLess, result, equal⟩
    rw [evaluate_eq] at equal
    rcases calls_end _ result equal calls with ⟨lesser, isLesser, rest⟩
    exact ⟨lesser, isLesser.trans isLess, rest⟩

mutual

theorem registered_of_calls {factor : FactorDef K} : ∀ expr : Expression K,
    Calls (Gives functions context) context factor expr → factor ∈ context.factors.rows
  | .Literal _, calls => calls.elim
  | .Identifier _, calls => calls.elim
  | .BinaryOp _ left right, calls =>
    calls.elim (registered_of_calls left) fun calls => registered_of_calls right calls.2
  | .UnaryOp _ operand, calls => registered_of_calls operand calls
  | .FunctionCall name args, calls => by
    cases isBuiltin : context.builtins name with
    | some builtin =>
      simp only [Calls, isBuiltin] at calls
      exact registeredArgs_of_calls args calls
    | none =>
      simp only [Calls, isBuiltin] at calls
      exact (KeyedRows.get_eq_some.mp calls).1
  | .Conditional condition thenBranch elseBranch, calls => by
    rcases calls with calls | ⟨-, calls⟩ | ⟨-, calls⟩
    · exact registered_of_calls condition calls
    · exact registered_of_calls thenBranch calls
    · exact registered_of_calls elseBranch calls

theorem registeredArgs_of_calls {factor : FactorDef K} : ∀ args : List (Expression K),
    CallsArgs (Gives functions context) context factor args → factor ∈ context.factors.rows
  | [], calls => calls.elim
  | arg :: args, calls =>
    calls.elim (registered_of_calls arg) fun calls => registeredArgs_of_calls args calls.2

end

theorem registered_of_reaches {expr : Expression K} {factor : FactorDef K}
    (reaches : Reaches (Gives functions context) context expr factor) :
    factor ∈ context.factors.rows := by
  rcases reaches with ⟨called, calls, later⟩
  cases later with
  | refl => exact registered_of_calls expr calls
  | tail _ calls => exact registered_of_calls _ calls

theorem Reaches.next {expr : Expression K} {caller factor : FactorDef K}
    (reaches : Reaches (Gives functions context) context expr caller)
    (calls : BodyCalls (Gives functions context) context caller factor) :
    Reaches (Gives functions context) context expr factor := by
  rcases reaches with ⟨called, first, later⟩
  exact ⟨called, first, later.tail calls⟩

theorem ends_of_noneCallsItself {expr : Expression K}
    (noCycle : NoneCallsItself (Gives functions context) context expr) :
    Ends functions context expr := by
  let Reached := { factor : FactorDef K // Reaches (Gives functions context) context expr factor }
  let calledFrom : Reached → Reached → Prop := fun factor caller =>
    Relation.TransGen (BodyCalls (Gives functions context) context) caller.1 factor.1
  have finite : Finite Reached :=
    (List.finite_toSet context.factors.rows).subset fun factor reaches =>
      registered_of_reaches reaches
  have transitive : IsTrans Reached calledFrom := ⟨fun _ _ _ first second => second.trans first⟩
  have irreflexive : Std.Irrefl calledFrom := ⟨fun factor => noCycle factor.1 factor.2⟩
  have wellFounded := Finite.wellFounded_of_trans_of_irrefl calledFrom
  have bodies : ∀ factor : Reached, Ends functions context factor.1.expr := by
    intro factor
    induction factor using wellFounded.induction with
    | h factor induction =>
      apply ends_of_calls
      intro called calls
      exact induction ⟨called, factor.2.next calls⟩ (.single calls)
  apply ends_of_calls
  intro factor calls
  exact bodies ⟨factor, factor, calls, .refl⟩

end Depth

/-- An evaluation ends exactly if no factor that it comes to is called again for its own
body. -/
theorem ends_iff (functions : FloatFunctions K) (context : ExecutionContext K)
    (expr : Expression K) :
    Ends functions context expr ↔ NoneCallsItself (Gives functions context) context expr := by
  constructor
  · intro ends factor reaches cycle
    classical
    have body := ends_of_reaches ends reaches
    -- The least depth at which the body ends is not the least.
    rcases transGen_end cycle (Nat.find_spec body) with ⟨less, isLess, found⟩
    exact Nat.find_min body isLess found
  · exact ends_of_noneCallsItself

section Written

omit [Field K] [LinearOrder K]

variable {gives : Expression K → Value K → Prop} {context : ExecutionContext K}

mutual

theorem Calls.written {factor : FactorDef K} : ∀ expr : Expression K,
    Calls gives context factor expr → Calls (fun _ _ => True) context factor expr
  | .Literal _, calls => calls
  | .Identifier _, calls => calls
  | .BinaryOp _ left right, calls =>
    calls.imp (Calls.written left) fun ⟨⟨value, _⟩, calls⟩ =>
      ⟨⟨value, trivial⟩, Calls.written right calls⟩
  | .UnaryOp _ operand, calls => Calls.written operand calls
  | .FunctionCall name args, calls => by
    cases isBuiltin : context.builtins name with
    | some builtin =>
      simp only [Calls, isBuiltin] at calls ⊢
      exact CallsArgs.written args calls
    | none =>
      simp only [Calls, isBuiltin] at calls ⊢
      exact calls
  | .Conditional condition thenBranch elseBranch, calls =>
    calls.imp (Calls.written condition) fun calls =>
      calls.imp (fun calls => ⟨trivial, Calls.written thenBranch calls.2⟩) fun calls =>
        ⟨trivial, Calls.written elseBranch calls.2⟩

theorem CallsArgs.written {factor : FactorDef K} : ∀ args : List (Expression K),
    CallsArgs gives context factor args → CallsArgs (fun _ _ => True) context factor args
  | [], calls => calls
  | arg :: args, calls =>
    calls.imp (Calls.written arg) fun ⟨⟨value, _⟩, calls⟩ =>
      ⟨⟨value, trivial⟩, CallsArgs.written args calls⟩

end

end Written

/-- Factors whose bodies, as they are written, call each other without a cycle: every
evaluation ends, whatever the variables are. -/
theorem ends_of_acyclic (functions : FloatFunctions K) {context : ExecutionContext K}
    {expr : Expression K} (acyclic : NoneCallsItself (fun _ _ => True) context expr) :
    Ends functions context expr := by
  have written : ∀ caller factor, BodyCalls (Gives functions context) context caller factor →
      BodyCalls (fun _ _ => True) context caller factor :=
    fun caller factor => Calls.written caller.expr
  apply ends_of_noneCallsItself
  rintro factor ⟨called, calls, later⟩ cycle
  exact acyclic factor ⟨called, calls.written expr, Relation.ReflTransGen.mono written _ _ later⟩
    (Relation.TransGen.mono written _ _ cycle)

def selfCalling (functions : FloatFunctions K) : ExecutionContext K :=
  (ExecutionContext.new functions).registerFactor { name := "f", expr := .FunctionCall "f" [] }

theorem evaluate_selfCalling (functions : FloatFunctions K) (depth : ℕ) :
    evaluate functions (selfCalling functions) depth (.FunctionCall "f" []) = none := by
  induction depth with
  | zero => rfl
  | succ depth induction => exact induction

theorem ends_selfCalling :
    ¬ ∀ (functions : FloatFunctions ℚ) (context : ExecutionContext ℚ) (expr : Expression ℚ),
      Ends functions context expr := by
  intro ends
  have functions : FloatFunctions ℚ :=
    { sqrt := id, ln := id, exp := id, powf := fun base _ => base, rem := fun left _ => left }
  rcases ends functions (selfCalling functions) (.FunctionCall "f" []) with ⟨depth, result, equal⟩
  rw [evaluate_selfCalling] at equal
  cases equal

end QAExchange.Dsl
