import RaftKeeper.Lib.Finmap
import RaftKeeper.ZooKeeper.Types

/-!
# The table of access control lists

`ACLMap` interns access control lists: a node stores a number, and `usageCounter` counts the nodes
that hold it, so that a list is forgotten with its last use. Number 0 stands for world:anyone:all
and is never counted. `Valid` is the invariant of the table; `Agrees` compares two tables the way a
client can.
-/

namespace RaftKeeper

open Option

/-- `ACLMap` of the source; absent entries of `usageCounter` count nothing. -/
structure ACLMap where
  aclToNum : Dict ACLs ℕ := ∅
  numToAcl : Dict ℕ ACLs := ∅
  usageCounter : Dict ℕ ℕ := ∅
  maxAclId : ℕ := 1

namespace ACLMap

def convertACLs (table : ACLMap) (acls : ACLs) : ℕ × ACLMap :=
  if acls = [] ∨ acls = ACL.worldAnyone then (0, table)
  else
    match table.aclToNum.lookup acls with
    | some number => (number, table)
    | none =>
      (table.maxAclId,
        { table with
          aclToNum := table.aclToNum.insert acls table.maxAclId
          numToAcl := table.numToAcl.insert table.maxAclId acls
          maxAclId := table.maxAclId + 1 })

/-- `ACLMap::convertNumber`; `none` is the exception "Unknown ACL id". -/
def convertNumber (table : ACLMap) (number : ℕ) : Option ACLs :=
  if number = 0 then some ACL.worldAnyone else table.numToAcl.lookup number

def addMapping (table : ACLMap) (number : ℕ) (acls : ACLs) : ACLMap :=
  { table with
    numToAcl := table.numToAcl.insert number acls
    aclToNum := table.aclToNum.insert acls number
    maxAclId := max (number + 1) table.maxAclId }

/-- How often a number is counted; an absent entry counts nothing. -/
def usage (table : ACLMap) (number : ℕ) : ℕ :=
  (table.usageCounter.lookup number).getD 0

def addUsage (table : ACLMap) (number : ℕ) (count : ℕ := 1) : ACLMap :=
  if number = 0 then table
  else
    { table with
      usageCounter := table.usageCounter.insert number (table.usage number + count) }

def removeUsage (table : ACLMap) (number : ℕ) : ACLMap :=
  match table.usageCounter.lookup number with
  | none => table
  | some count =>
    if count - 1 = 0 then
      -- `num_to_acl[acl_id]` reads an absent entry as the empty list
      { table with
        numToAcl := table.numToAcl.erase number
        aclToNum := table.aclToNum.erase ((table.numToAcl.lookup number).getD [])
        usageCounter := table.usageCounter.erase number }
    else { table with usageCounter := table.usageCounter.insert number (count - 1) }

/-- The list a node gets when `acls` is interned for it. -/
def effective (acls : ACLs) : ACLs := if acls = [] then ACL.worldAnyone else acls

def intern (table : ACLMap) (acls : ACLs) : ℕ × ACLMap :=
  ((table.convertACLs acls).1, (table.convertACLs acls).2.addUsage (table.convertACLs acls).1)

/-- The invariant of the table: a bijection with positive counters for listed numbers only. -/
structure Valid (table : ACLMap) : Prop where
  inverse : ∀ number acls,
    table.numToAcl.lookup number = some acls ↔ table.aclToNum.lookup acls = some number
  bounded : ∀ number acls, table.numToAcl.lookup number = some acls →
    0 < number ∧ number < table.maxAclId
  counted : ∀ number count, table.usageCounter.lookup number = some count →
    0 < count ∧ (table.numToAcl.lookup number).isSome
  maxPositive : 0 < table.maxAclId

/-- The same counters, and the same list behind every counted number. -/
structure Agrees (before after : ACLMap) : Prop where
  usage : ∀ number, after.usage number = before.usage number
  resolved : ∀ number, 0 < before.usage number →
    after.numToAcl.lookup number = before.numToAcl.lookup number

theorem Agrees.refl (table : ACLMap) : table.Agrees table := ⟨fun _ => rfl, fun _ _ => rfl⟩

theorem valid_empty : ({} : ACLMap).Valid where
  inverse := by simp
  bounded := by simp
  counted := by simp
  maxPositive := by simp

variable {table : ACLMap} {number : ℕ}

theorem Valid.lookup_eq_some_of_usage (valid : table.Valid) (used : 0 < table.usage number) :
    ∃ acls, table.numToAcl.lookup number = some acls := by
  cases found : table.usageCounter.lookup number with
  | none => simp [usage, found] at used
  | some count => exact isSome_iff_exists.mp (valid.counted number count found).2

theorem Valid.usage_zero (valid : table.Valid) : table.usage 0 = 0 := by
  by_contra used
  rcases valid.lookup_eq_some_of_usage (Nat.pos_of_ne_zero used) with ⟨acls, found⟩
  exact absurd (valid.bounded 0 acls found).1 (lt_irrefl 0)

theorem Valid.fresh (valid : table.Valid) : table.numToAcl.lookup table.maxAclId = none := by
  cases found : table.numToAcl.lookup table.maxAclId with
  | none => rfl
  | some acls => exact absurd (valid.bounded _ _ found).2 (lt_irrefl _)

@[simp]
theorem convertNumber_zero (table : ACLMap) : table.convertNumber 0 = some ACL.worldAnyone := rfl

theorem convertNumber_of_ne (nonzero : number ≠ 0) :
    table.convertNumber number = table.numToAcl.lookup number := if_neg nonzero

theorem convertACLs_cases (table : ACLMap) (acls : ACLs) :
    ((table.convertACLs acls) = (0, table) ∧ effective acls = ACL.worldAnyone) ∨
    (∃ number, table.convertACLs acls = (number, table) ∧
      table.aclToNum.lookup acls = some number ∧ effective acls = acls) ∨
    (table.convertACLs acls =
        (table.maxAclId,
          { table with
            aclToNum := table.aclToNum.insert acls table.maxAclId
            numToAcl := table.numToAcl.insert table.maxAclId acls
            maxAclId := table.maxAclId + 1 }) ∧
      table.aclToNum.lookup acls = none ∧ effective acls = acls) := by
  unfold convertACLs effective
  by_cases trivialAcls : acls = [] ∨ acls = ACL.worldAnyone
  · left
    refine ⟨if_pos trivialAcls, ?_⟩
    rcases trivialAcls with rfl | rfl
    · rfl
    · simp [ACL.worldAnyone]
  · right
    rw [if_neg trivialAcls]
    have nonempty : acls ≠ [] := fun empty => trivialAcls (.inl empty)
    cases found : table.aclToNum.lookup acls with
    | some number => exact .inl ⟨number, rfl, rfl, if_neg nonempty⟩
    | none => exact .inr ⟨rfl, rfl, if_neg nonempty⟩

@[simp]
theorem convertACLs_usageCounter (table : ACLMap) (acls : ACLs) :
    (table.convertACLs acls).2.usageCounter = table.usageCounter := by
  rcases table.convertACLs_cases acls with ⟨result, _⟩ | ⟨_, result, _⟩ | ⟨result, _⟩ <;>
    rw [result]

theorem Valid.convertACLs_lookup (valid : table.Valid) (acls : ACLs) {known : ACLs}
    (found : table.numToAcl.lookup number = some known) :
    (table.convertACLs acls).2.numToAcl.lookup number = some known := by
  rcases table.convertACLs_cases acls with ⟨result, _⟩ | ⟨_, result, _⟩ | ⟨result, _⟩
  · rwa [result]
  · rwa [result]
  · have distinct : number ≠ table.maxAclId := by
      rintro rfl
      simp [valid.fresh] at found
    rw [result]
    simpa [Finmap.lookup_insert_ite, distinct] using found

theorem Valid.convertACLs (valid : table.Valid) (acls : ACLs) :
    (table.convertACLs acls).2.Valid := by
  rcases table.convertACLs_cases acls with ⟨result, _⟩ | ⟨_, result, _⟩ | ⟨result, unknown, _⟩
  · rwa [result]
  · rwa [result]
  · rw [result]
    refine ⟨?_, ?_, ?_, Nat.succ_pos _⟩
    · intro number list
      simp only [Finmap.lookup_insert_ite]
      by_cases isNew : number = table.maxAclId
      · subst isNew
        by_cases sameList : list = acls
        · simp [sameList]
        · have unlisted : table.aclToNum.lookup list ≠ some table.maxAclId := by
            rw [Ne, ← valid.inverse, valid.fresh]
            simp
          simp [sameList, Ne.symm sameList, unlisted]
      · by_cases sameList : list = acls
        · have unlisted : table.numToAcl.lookup number ≠ some list := by
            rw [Ne, valid.inverse, sameList, unknown]
            simp
          subst sameList
          simp [isNew, unlisted, Ne.symm isNew]
        · simpa [isNew, sameList] using valid.inverse number list
    · intro number list found
      by_cases isNew : number = table.maxAclId
      · exact ⟨isNew ▸ valid.maxPositive, by simp [isNew]⟩
      · simp only [Finmap.lookup_insert_ite, isNew, if_false] at found
        have bounds := valid.bounded number list found
        exact ⟨bounds.1, Nat.lt_succ_of_lt bounds.2⟩
    · intro number count found
      have counted := valid.counted number count found
      refine ⟨counted.1, ?_⟩
      simp only [Finmap.lookup_insert_ite]
      split
      · rfl
      · exact counted.2

theorem Valid.convertNumber_convertACLs (valid : table.Valid) (acls : ACLs) :
    (table.convertACLs acls).2.convertNumber (table.convertACLs acls).1 =
      some (effective acls) := by
  rcases table.convertACLs_cases acls with
    ⟨result, isWorld⟩ | ⟨number, result, known, same⟩ | ⟨result, _, same⟩
  · rw [result, isWorld, convertNumber_zero]
  · have listed := (valid.inverse number acls).mpr known
    have nonzero : number ≠ 0 := Nat.pos_iff_ne_zero.mp (valid.bounded number acls listed).1
    rw [result, same, convertNumber_of_ne nonzero, listed]
  · rw [result, same, convertNumber_of_ne (Nat.pos_iff_ne_zero.mp valid.maxPositive)]
    simp

@[simp]
theorem addUsage_numToAcl (table : ACLMap) (number count : ℕ) :
    (table.addUsage number count).numToAcl = table.numToAcl := by
  unfold addUsage
  split <;> rfl

@[simp]
theorem addUsage_convertNumber (table : ACLMap) (number count other : ℕ) :
    (table.addUsage number count).convertNumber other = table.convertNumber other := by
  simp [convertNumber]

theorem addUsage_lookup (table : ACLMap) (count other : ℕ) (nonzero : number ≠ 0) :
    (table.addUsage number count).usageCounter.lookup other =
      if other = number then some (table.usage number + count)
      else table.usageCounter.lookup other := by
  rw [addUsage, if_neg nonzero, Finmap.lookup_insert_ite]

theorem usage_addUsage (table : ACLMap) (count other : ℕ) (nonzero : number ≠ 0) :
    (table.addUsage number count).usage other =
      table.usage other + if other = number then count else 0 := by
  rw [usage, addUsage_lookup table count other nonzero]
  split
  · rename_i same
    rw [same]
    rfl
  · rfl

theorem Valid.addUsage (valid : table.Valid)
    (listed : number ≠ 0 → (table.numToAcl.lookup number).isSome) :
    (table.addUsage number).Valid := by
  by_cases zero : number = 0
  · rwa [ACLMap.addUsage, if_pos zero]
  · have unchanged : (table.addUsage number).aclToNum = table.aclToNum ∧
        (table.addUsage number).maxAclId = table.maxAclId := by
      simp [ACLMap.addUsage, zero]
    refine ⟨?_, ?_, ?_, unchanged.2 ▸ valid.maxPositive⟩
    · simpa [unchanged.1] using valid.inverse
    · simpa [unchanged.2] using valid.bounded
    · intro other count found
      rw [addUsage_lookup table 1 other zero] at found
      rw [addUsage_numToAcl]
      by_cases same : other = number
      · rw [if_pos same] at found
        cases found
        exact ⟨Nat.succ_pos _, same ▸ listed zero⟩
      · rw [if_neg same] at found
        exact valid.counted other count found

theorem removeUsage_lookup (table : ACLMap) (number other : ℕ) :
    (table.removeUsage number).usageCounter.lookup other =
      if other = number then
        if table.usage number ≤ 1 then none else some (table.usage number - 1)
      else table.usageCounter.lookup other := by
  unfold removeUsage usage
  cases found : table.usageCounter.lookup number with
  | none =>
    by_cases same : other = number
    · subst same
      simpa using found
    · simp [same]
  | some count =>
    by_cases last : count ≤ 1
    · simp [last, Finmap.lookup_erase_ite, Nat.sub_eq_zero_of_le last]
    · have more : count - 1 ≠ 0 := by omega
      simp [last, more, Finmap.lookup_insert_ite]

theorem usage_removeUsage (table : ACLMap) (number other : ℕ) :
    (table.removeUsage number).usage other =
      table.usage other - if other = number then 1 else 0 := by
  rw [usage, removeUsage_lookup]
  split
  · rename_i same
    subst same
    split
    · rw [getD_none]
      omega
    · rfl
  · rfl

theorem removeUsage_numToAcl_of_ne (table : ACLMap) {other : ℕ} (distinct : other ≠ number) :
    (table.removeUsage number).numToAcl.lookup other = table.numToAcl.lookup other := by
  unfold removeUsage
  split
  · rfl
  · split
    · simp [distinct]
    · rfl

theorem Valid.removeUsage_numToAcl (valid : table.Valid) (notLast : table.usage number ≠ 1) :
    (table.removeUsage number).numToAcl = table.numToAcl := by
  unfold ACLMap.removeUsage
  split
  · rfl
  · rename_i count found
    have positive := (valid.counted number count found).1
    have more : count - 1 ≠ 0 := by
      simp only [usage, found, getD_some] at notLast
      omega
    rw [if_neg more]

theorem Valid.removeUsage (valid : table.Valid) (number : ℕ) :
    (table.removeUsage number).Valid := by
  unfold ACLMap.removeUsage
  cases found : table.usageCounter.lookup number with
  | none => exact valid
  | some count =>
    rcases valid.counted number count found with ⟨positive, listed⟩
    rcases isSome_iff_exists.mp listed with ⟨acls, hasAcls⟩
    have hasNumber := (valid.inverse number acls).mp hasAcls
    dsimp only
    split
    · rw [hasAcls, getD_some]
      refine ⟨?_, ?_, ?_, valid.maxPositive⟩
      · intro other list
        simp only [Finmap.lookup_erase_ite]
        by_cases same : other = number
        · by_cases sameList : list = acls
          · simp [same, sameList]
          · have unlisted : table.aclToNum.lookup list ≠ some number := by
              rw [Ne, ← valid.inverse, hasAcls]
              simpa using Ne.symm sameList
            simp [same, sameList, unlisted]
        · by_cases sameList : list = acls
          · have unlisted : table.numToAcl.lookup other ≠ some acls := by
              rw [Ne, valid.inverse, hasNumber]
              simpa using Ne.symm same
            simp [same, sameList, unlisted]
          · simpa [same, sameList] using valid.inverse other list
      · intro other list listedOther
        simp only [Finmap.lookup_erase_ite] at listedOther
        split at listedOther
        · cases listedOther
        · exact valid.bounded other list listedOther
      · intro other uses usesOther
        simp only [Finmap.lookup_erase_ite] at usesOther ⊢
        split at usesOther
        · cases usesOther
        · rename_i distinct
          simpa [distinct] using valid.counted other uses usesOther
    · rename_i more
      refine ⟨valid.inverse, valid.bounded, ?_, valid.maxPositive⟩
      intro other uses usesOther
      simp only [Finmap.lookup_insert_ite] at usesOther
      split at usesOther
      · rename_i same
        cases usesOther
        exact ⟨Nat.pos_of_ne_zero more, same ▸ listed⟩
      · exact valid.counted other uses usesOther

@[simp]
theorem intern_nil (table : ACLMap) : table.intern [] = (0, table) := by
  simp [intern, convertACLs, addUsage]

section

variable {table later : ACLMap}

theorem Valid.intern (valid : table.Valid) (acls : ACLs) : (table.intern acls).2.Valid := by
  apply (valid.convertACLs acls).addUsage
  intro nonzero
  have resolved := valid.convertNumber_convertACLs acls
  rw [convertNumber_of_ne nonzero] at resolved
  rw [resolved]
  rfl

theorem Valid.convertNumber_intern (valid : table.Valid) (acls : ACLs) :
    (table.intern acls).2.convertNumber (table.intern acls).1 = some (effective acls) := by
  simpa [ACLMap.intern] using valid.convertNumber_convertACLs acls

variable {number : ℕ}

theorem Valid.intern_lookup (valid : table.Valid) (acls : ACLs) {known : ACLs}
    (found : table.numToAcl.lookup number = some known) :
    (table.intern acls).2.numToAcl.lookup number = some known := by
  simpa [ACLMap.intern] using valid.convertACLs_lookup acls found

theorem usage_intern (table : ACLMap) (acls : ACLs) (number : ℕ) :
    (table.intern acls).2.usage number =
      table.usage number +
        if number = (table.intern acls).1 ∧ (table.intern acls).1 ≠ 0 then 1 else 0 := by
  have unchanged : (table.convertACLs acls).2.usage number = table.usage number := by
    simp [usage]
  by_cases zero : (table.convertACLs acls).1 = 0
  · simp [ACLMap.intern, zero, ACLMap.addUsage, unchanged]
  · simp [ACLMap.intern, usage_addUsage _ _ _ zero, unchanged, zero]

theorem Agrees.convertNumber_eq (agrees : table.Agrees later)
    (used : number ≠ 0 → 0 < table.usage number) :
    later.convertNumber number = table.convertNumber number := by
  by_cases zero : number = 0
  · simp [zero]
  · rw [convertNumber_of_ne zero, convertNumber_of_ne zero]
    exact agrees.resolved number (used zero)

theorem Valid.agrees_removeUsage_intern (valid : table.Valid) (laterValid : later.Valid)
    (acls : ACLs) (agrees : (table.intern acls).2.Agrees later) :
    table.Agrees (later.removeUsage (table.intern acls).1) := by
  have counters : ∀ number, later.usage number = table.usage number +
      if number = (table.intern acls).1 ∧ (table.intern acls).1 ≠ 0 then 1 else 0 := by
    intro number
    rw [agrees.usage, usage_intern]
  constructor
  · intro number
    rw [usage_removeUsage, counters]
    by_cases same : number = (table.intern acls).1
    · by_cases zero : (table.intern acls).1 = 0
      · simp [same, zero, valid.usage_zero]
      · simp [same, zero]
    · simp [same]
  · intro number used
    rcases valid.lookup_eq_some_of_usage used with ⟨known, found⟩
    have kept : later.numToAcl.lookup number = some known := by
      rw [agrees.resolved number (by rw [usage_intern]; omega)]
      exact valid.intern_lookup acls found
    rw [found, ← kept]
    by_cases same : number = (table.intern acls).1
    · have several : later.usage (table.intern acls).1 ≠ 1 := by
        have nonzero : number ≠ 0 := fun zero => by simp [zero, valid.usage_zero] at used
        have counter := counters number
        rw [← same] at counter ⊢
        simp only [nonzero, ne_eq, not_false_eq_true, and_self, if_true] at counter
        omega
      rw [laterValid.removeUsage_numToAcl several]
    · exact removeUsage_numToAcl_of_ne later same

theorem Valid.agrees_addUsage_removeUsage (valid : table.Valid) (notLast : table.usage number ≠ 1)
    (used : number ≠ 0 → 0 < table.usage number)
    (agrees : (table.removeUsage number).Agrees later) :
    table.Agrees (later.addUsage number) := by
  have lists := valid.removeUsage_numToAcl notLast
  by_cases zero : number = 0
  · subst zero
    have counters : ∀ other, later.usage other = table.usage other := by
      intro other
      rw [agrees.usage, usage_removeUsage]
      split
      · rename_i same
        rw [same, valid.usage_zero]
      · rfl
    rw [ACLMap.addUsage, if_pos rfl]
    refine ⟨counters, ?_⟩
    intro other usedOther
    rw [agrees.resolved other (by rwa [← agrees.usage, counters]), lists]
  · constructor
    · intro other
      rw [usage_addUsage _ _ _ zero, agrees.usage, usage_removeUsage]
      split
      · rename_i same
        have := used zero
        rw [same]
        omega
      · rfl
    · intro other usedOther
      have remains : 0 < (table.removeUsage number).usage other := by
        rw [usage_removeUsage]
        split
        · rename_i same
          have := used zero
          rw [same]
          omega
        · exact usedOther
      rw [addUsage_numToAcl, agrees.resolved other remains, lists]

theorem Valid.addUsage_of_agrees (laterValid : later.Valid) (notLast : table.usage number ≠ 1)
    (used : number ≠ 0 → 0 < table.usage number)
    (agrees : (table.removeUsage number).Agrees later) : (later.addUsage number).Valid := by
  apply laterValid.addUsage
  intro nonzero
  have counted : 0 < later.usage number := by
    have := used nonzero
    rw [agrees.usage, usage_removeUsage, if_pos rfl]
    omega
  rcases laterValid.lookup_eq_some_of_usage counted with ⟨acls, found⟩
  rw [found]
  rfl

def Tight (table : ACLMap) : Prop :=
  ∀ number, (table.numToAcl.lookup number).isSome → 0 < table.usage number

theorem tight_empty : ({} : ACLMap).Tight := by
  intro number listed
  simp at listed

theorem Tight.addUsage (tight : table.Tight) (number : ℕ) : (table.addUsage number).Tight := by
  intro other listed
  rw [addUsage_numToAcl] at listed
  have used := tight other listed
  by_cases zero : number = 0
  · rwa [ACLMap.addUsage, if_pos zero]
  · rw [usage_addUsage _ _ _ zero]
    omega

theorem Tight.intern (tight : table.Tight) (valid : table.Valid) (acls : ACLs) :
    (table.intern acls).2.Tight := by
  intro number listed
  rw [usage_intern]
  by_cases isNew : number = (table.intern acls).1 ∧ (table.intern acls).1 ≠ 0
  · rw [if_pos isNew]
    omega
  · rw [if_neg isNew]
    refine tight number ?_
    simp only [ACLMap.intern, addUsage_numToAcl] at listed isNew
    rcases table.convertACLs_cases acls with ⟨result, _⟩ | ⟨_, result, _⟩ | ⟨result, _⟩
    · rwa [result] at listed
    · rwa [result] at listed
    · have distinct : number ≠ table.maxAclId := by
        rintro rfl
        simp [result, valid.maxPositive.ne'] at isNew
      rw [result, Finmap.lookup_insert_ite, if_neg distinct] at listed
      exact listed

theorem Tight.removeUsage (tight : table.Tight) (number : ℕ) :
    (table.removeUsage number).Tight := by
  intro other listed
  rw [usage_removeUsage]
  by_cases same : other = number
  · subst same
    rw [if_pos rfl]
    unfold ACLMap.removeUsage at listed
    cases found : table.usageCounter.lookup other with
    | none =>
      simp only [found] at listed
      have used := tight other listed
      simp [usage, found] at used
    | some count =>
      simp only [found] at listed
      split at listed
      · simp at listed
      · simp only [usage, found, getD_some]
        omega
  · rw [removeUsage_numToAcl_of_ne table same] at listed
    rw [if_neg same]
    exact tight other listed

theorem Agrees.eq_of_tight (agrees : table.Agrees later) (valid : table.Valid)
    (laterValid : later.Valid) (tight : table.Tight) (laterTight : later.Tight) :
    later = { table with maxAclId := later.maxAclId } := by
  have numbers : later.numToAcl = table.numToAcl := by
    apply Finmap.ext_lookup
    intro number
    by_cases used : 0 < table.usage number
    · exact agrees.resolved number used
    · have absent : table.numToAcl.lookup number = none := by
        by_contra listed
        exact used (tight number (isSome_iff_ne_none.mpr listed))
      have laterAbsent : later.numToAcl.lookup number = none := by
        by_contra listed
        exact used (agrees.usage number ▸ laterTight number (isSome_iff_ne_none.mpr listed))
      rw [absent, laterAbsent]
  have lists : later.aclToNum = table.aclToNum := by
    apply Finmap.ext_lookup
    intro acls
    apply ext
    intro number
    rw [← laterValid.inverse, ← valid.inverse, numbers]
  have counters : later.usageCounter = table.usageCounter := by
    apply Finmap.ext_lookup
    intro number
    have same := agrees.usage number
    cases found : table.usageCounter.lookup number with
    | none =>
      cases laterFound : later.usageCounter.lookup number with
      | none => rfl
      | some count =>
        have positive := (laterValid.counted number count laterFound).1
        simp only [ACLMap.usage, found, laterFound, getD_some, getD_none] at same
        omega
    | some count =>
      have positive := (valid.counted number count found).1
      cases laterFound : later.usageCounter.lookup number with
      | none =>
        simp only [ACLMap.usage, found, laterFound, getD_some, getD_none] at same
        omega
      | some laterCount =>
        simp only [ACLMap.usage, found, laterFound, getD_some] at same
        rw [same]
  cases later
  simp_all

end

end ACLMap

end RaftKeeper
