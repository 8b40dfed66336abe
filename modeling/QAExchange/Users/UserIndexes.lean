import QAExchange.Users.UserManager

/-! # Indexes of the users

An index maps the values that one field has among the users to their owners.
-/

namespace QAExchange.Users

open Foundation UserManager

/-- The index has exactly the values of the users, and each of them leads to its owner. -/
def Indexes (field : User → Option String) (index : String → Option String) (users : List User) :
    Prop :=
  ∀ value userId, index value = some userId ↔
    ∃ user ∈ users, user.userId = userId ∧ field user = some value

namespace Indexes

variable {field : User → Option String} {index : String → Option String} {users : List User}

theorem empty (field : User → Option String) : Indexes field (fun _ => none) [] := by
  intro value userId
  simp

section

variable (indexes : Indexes field index users)
include indexes

theorem congr (same : ∀ user, user ∈ others ↔ user ∈ users) : Indexes field index others := by
  intro value userId
  simp only [indexes value userId, same]

theorem eq_none_iff (value : String) :
    index value = none ↔ ∀ user ∈ users, field user ≠ some value := by
  constructor
  · intro absent user member isValue
    have found := (indexes value user.userId).mpr ⟨user, member, rfl, isValue⟩
    rw [absent] at found
    cases found
  · intro unowned
    cases found : index value with
    | none => rfl
    | some userId =>
      rcases (indexes value userId).mp found with ⟨user, member, _, isValue⟩
      exact absurd isValue (unowned user member)

theorem insert (members : ∀ other, other ∈ others ↔ other = user ∨ other ∈ users)
    (free : ∀ value, field user = some value → ∀ other ∈ users, field other ≠ some value) :
    Indexes field (withIndex index (field user) user.userId) others := by
  intro value userId
  have old : (∃ other ∈ others, other.userId = userId ∧ field other = some value) ↔
      (user.userId = userId ∧ field user = some value) ∨
        ∃ other ∈ users, other.userId = userId ∧ field other = some value := by
    simp only [members, or_and_right, exists_or, exists_eq_left]
  rw [old]
  cases isField : field user with
  | none =>
    rw [withIndex, indexes]
    simp
  | some own =>
    rw [withIndex]
    by_cases isOwn : value = own
    · subst isOwn
      have unowned : ¬ ∃ other ∈ users, other.userId = userId ∧ field other = some value := by
        rintro ⟨other, member, _, isValue⟩
        exact free value isField other member isValue
      rw [Function.update_self, or_iff_left unowned]
      simp
    · have different : ¬ (user.userId = userId ∧ some own = some value) := by
        rintro ⟨_, same⟩
        exact isOwn (Option.some.inj same).symm
      rw [Function.update_of_ne isOwn, indexes, or_iff_right different]

theorem change
    (same : ∀ userId value, (∃ user ∈ others, user.userId = userId ∧ field user = some value) ↔
      ∃ user ∈ users, user.userId = userId ∧ field user = some value) :
    Indexes field index others := by
  intro value userId
  rw [indexes, same]

theorem eq (isOther : Indexes field other others)
    (same : ∀ userId value, (∃ user ∈ others, user.userId = userId ∧ field user = some value) ↔
      ∃ user ∈ users, user.userId = userId ∧ field user = some value) : other = index := by
  funext value
  apply Option.ext
  intro userId
  rw [isOther, indexes, same]

end

end Indexes

/-- Neither of the users has anything that only one user may have. -/
structure Apart (left right : User) : Prop where
  userId : left.userId ≠ right.userId
  username : left.username ≠ right.username
  phone : ∀ phone, left.phone = some phone → right.phone ≠ some phone
  email : ∀ email, left.email = some email → right.email ≠ some email

theorem Apart.symm (apart : Apart left right) : Apart right left where
  userId := apart.userId.symm
  username := apart.username.symm
  phone := fun phone isRight isLeft => apart.phone phone isLeft isRight
  email := fun email isRight isLeft => apart.email email isLeft isRight

structure UserManager.Indexed (manager : UserManager) : Prop where
  usernames : Indexes (fun user => some user.username) manager.usernameIndex manager.users.rows
  phones : Indexes User.phone manager.phoneIndex manager.users.rows
  emails : Indexes User.email manager.emailIndex manager.users.rows

namespace UserManager.Indexed

variable {manager : UserManager}

theorem new : UserManager.new.Indexed where
  usernames := .empty _
  phones := .empty _
  emails := .empty _

theorem apart (indexed : manager.Indexed) (isLeft : left ∈ manager.users.rows)
    (isRight : right ∈ manager.users.rows) (different : left.userId ≠ right.userId) :
    Apart left right := by
  have single : ∀ {field : User → Option String} {index : String → Option String} {value : String},
      Indexes field index manager.users.rows → field left = some value →
        field right ≠ some value := by
    intro field index value indexes isValue also
    have first := (indexes value left.userId).mpr ⟨left, isLeft, rfl, isValue⟩
    have second := (indexes value right.userId).mpr ⟨right, isRight, rfl, also⟩
    rw [first] at second
    exact different (Option.some.inj second)
  refine ⟨different, ?_, fun _ => single indexed.phones, fun _ => single indexed.emails⟩
  intro same
  exact single indexed.usernames rfl (congrArg some same.symm)

theorem insertUser (indexed : manager.Indexed)
    (apart : ∀ other ∈ manager.users.rows, Apart user other) :
    (manager.insertUser user).Indexed := by
  have members : ∀ other, other ∈ (manager.users.insert user).rows ↔
      other = user ∨ other ∈ manager.users.rows := by
    intro other
    rw [KeyedRows.mem_insert]
    constructor
    · exact Or.imp_right And.left
    · rintro (same | member)
      · exact .inl same
      · exact .inr ⟨member, (apart other member).userId.symm⟩
  refine ⟨indexed.usernames.insert members ?_, indexed.phones.insert members ?_,
    indexed.emails.insert members ?_⟩
  · intro value isValue other member same
    cases isValue
    exact (apart other member).username (Option.some.inj same).symm
  · intro value isValue other member
    exact (apart other member).phone value isValue
  · intro value isValue other member
    exact (apart other member).email value isValue

end UserManager.Indexed

end QAExchange.Users
