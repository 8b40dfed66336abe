import Mathlib.Data.List.Basic

/-! # Node roles

The role of a node, the term it is in, and the vote it gave in that term.
-/

namespace QAExchange

inductive NodeRole
  | Master
  | Slave
  | Candidate
  deriving DecidableEq

structure RoleManager where
  role : NodeRole
  nodeId : String
  currentTerm : ℕ
  votedFor : Option String
  masterId : Option String

namespace RoleManager

def new (nodeId : String) (initialRole : NodeRole) : RoleManager where
  role := initialRole
  nodeId := nodeId
  currentTerm := 0
  votedFor := none
  masterId := none

def setRole (role : NodeRole) (manager : RoleManager) : RoleManager :=
  { manager with role }

def setTerm (term : ℕ) (manager : RoleManager) : RoleManager :=
  if manager.currentTerm < term then { manager with currentTerm := term, votedFor := none }
  else manager

def incrementTerm (manager : RoleManager) : RoleManager :=
  { manager with currentTerm := manager.currentTerm + 1, votedFor := none }

def voteFor (candidateId : String) (manager : RoleManager) : Bool × RoleManager :=
  match manager.votedFor with
  | none => (true, { manager with votedFor := some candidateId })
  | some _ => (false, manager)

def setMaster (masterId : Option String) (manager : RoleManager) : RoleManager :=
  { manager with masterId }

def becomeMaster (manager : RoleManager) : RoleManager :=
  (manager.setRole .Master).setMaster (some manager.nodeId)

def becomeSlave (masterId : String) (manager : RoleManager) : RoleManager :=
  (manager.setRole .Slave).setMaster (some masterId)

/-- The result of `vote_for` is dropped. -/
def becomeCandidate (manager : RoleManager) : RoleManager :=
  ((manager.setRole .Candidate).incrementTerm.voteFor manager.nodeId).2

variable (manager : RoleManager)

@[simp] theorem setRole_role (role : NodeRole) : (manager.setRole role).role = role := rfl
@[simp] theorem setRole_nodeId (role : NodeRole) :
    (manager.setRole role).nodeId = manager.nodeId := rfl
@[simp] theorem setRole_currentTerm (role : NodeRole) :
    (manager.setRole role).currentTerm = manager.currentTerm := rfl
@[simp] theorem setRole_votedFor (role : NodeRole) :
    (manager.setRole role).votedFor = manager.votedFor := rfl

@[simp] theorem becomeMaster_role : manager.becomeMaster.role = .Master := rfl
@[simp] theorem becomeMaster_nodeId : manager.becomeMaster.nodeId = manager.nodeId := rfl
@[simp] theorem becomeMaster_currentTerm :
    manager.becomeMaster.currentTerm = manager.currentTerm := rfl
@[simp] theorem becomeMaster_votedFor : manager.becomeMaster.votedFor = manager.votedFor := rfl

@[simp] theorem becomeSlave_role (masterId : String) :
    (manager.becomeSlave masterId).role = .Slave := rfl
@[simp] theorem becomeSlave_nodeId (masterId : String) :
    (manager.becomeSlave masterId).nodeId = manager.nodeId := rfl
@[simp] theorem becomeSlave_currentTerm (masterId : String) :
    (manager.becomeSlave masterId).currentTerm = manager.currentTerm := rfl
@[simp] theorem becomeSlave_votedFor (masterId : String) :
    (manager.becomeSlave masterId).votedFor = manager.votedFor := rfl

@[simp] theorem becomeCandidate_role : manager.becomeCandidate.role = .Candidate := rfl
@[simp] theorem becomeCandidate_nodeId : manager.becomeCandidate.nodeId = manager.nodeId := rfl
@[simp] theorem becomeCandidate_currentTerm :
    manager.becomeCandidate.currentTerm = manager.currentTerm + 1 := rfl
@[simp] theorem becomeCandidate_votedFor :
    manager.becomeCandidate.votedFor = some manager.nodeId := rfl

@[simp] theorem setTerm_role (term : ℕ) : (manager.setTerm term).role = manager.role := by
  unfold setTerm
  split_ifs <;> rfl

@[simp] theorem setTerm_nodeId (term : ℕ) : (manager.setTerm term).nodeId = manager.nodeId := by
  unfold setTerm
  split_ifs <;> rfl

@[simp] theorem setTerm_currentTerm (term : ℕ) :
    (manager.setTerm term).currentTerm = max manager.currentTerm term := by
  unfold setTerm
  split_ifs with later
  · exact (Nat.max_eq_right (Nat.le_of_lt later)).symm
  · exact (Nat.max_eq_left (Nat.le_of_not_lt later)).symm

theorem setTerm_of_le {manager : RoleManager} {term : ℕ} (reached : term ≤ manager.currentTerm) :
    manager.setTerm term = manager := if_neg (Nat.not_lt.mpr reached)

theorem voteFor_of_none {manager : RoleManager} (open' : manager.votedFor = none)
    (candidateId : String) :
    manager.voteFor candidateId = (true, { manager with votedFor := some candidateId }) := by
  rw [voteFor, open']

end RoleManager

end QAExchange
