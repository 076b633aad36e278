import NtfCore.Foundation.Order
import NtfCore.Ntsa.Identity
import Mathlib.Data.Prod.Lex

/-!
Contract: which sets of socket identities `less` and `equals` order.

Owns: for each of the types of identities, the exact condition on a set of
values under which `less` is a strict order on it that agrees with `equals`, as
an ordered container of such keys requires.
-/

namespace NtfCore.Ntsa

open NtfCore.Foundation NtfCore.Foundation.Order IpEndpoint IpAddress LocalName Endpoint Host
open UInt16 (lt_asymm lt_iff_toNat_lt lt_irrefl lt_trans toNat_inj)

/-! ## Internet addresses -/

inductive IpAddressType where
  | undefined
  | v4
  | v6
deriving DecidableEq

def IpAddress.type : IpAddress -> IpAddressType
  | .undefined => .undefined
  | .v4 _ => .v4
  | .v6 _ => .v6

def IpAddress.key : IpAddress -> ℕ ×ₗ ℕ ×ₗ ℕ
  | .undefined => toLex (0, toLex (0, 0))
  | .v4 address => toLex (Bytes.loadBigEndian address.value.toList, toLex (0, 0))
  | .v6 address => toLex (Bytes.loadBigEndian address.firstQword.toList,
      toLex (Bytes.loadBigEndian address.secondQword.toList, address.scopeId.toNat))

variable {a b c d e f : ℕ}

theorem lexPair_lt_iff : (toLex (a, toLex (b, c)) : ℕ ×ₗ ℕ ×ₗ ℕ) < toLex (d, toLex (e, f)) ↔
      a < d ∨ a = d ∧ (b < e ∨ b = e ∧ c < f) := by
  rw [Prod.Lex.toLex_lt_toLex, Prod.Lex.toLex_lt_toLex]

theorem lexPair_eq_iff :
    (toLex (a, toLex (b, c)) : ℕ ×ₗ ℕ ×ₗ ℕ) = toLex (d, toLex (e, f)) ↔ a = d ∧ b = e ∧ c = f := by
  rw [toLex_inj, Prod.mk.injEq, toLex_inj, Prod.mk.injEq]

theorem load_vector_iff {size : Nat} (left right : Vector UInt8 size) :
    Bytes.loadLittleEndian left.toList = Bytes.loadLittleEndian right.toList ↔
      Bytes.loadBigEndian left.toList = Bytes.loadBigEndian right.toList := by
  have sameLength : left.toList.length = right.toList.length := by
    rw [Vector.length_toList, Vector.length_toList]
  rw [Bytes.loadLittleEndian_inj sameLength, Bytes.loadBigEndian_inj sameLength]

theorem Ipv6Address.less_iff (address other : Ipv6Address) :
    address.less other = true ↔ key (.v6 address) < key (.v6 other) := by
  unfold key
  rw [lexPair_lt_iff]
  unfold Ipv6Address.less
  dsimp only
  split
  · rename_i firstLess
    simp only [true_iff]
    exact .inl firstLess
  · split
    · simp only [Bool.false_eq_true, false_iff]
      omega
    · split
      · simp only [true_iff]
        omega
      · split
        · simp only [Bool.false_eq_true, false_iff]
          omega
        · rw [decide_eq_true_eq, UInt32.lt_iff_toNat_lt]
          omega

variable {address other : IpAddress}

section

variable (sameType : address.type = other.type) (defined : address.type ≠ .undefined)
include sameType defined

theorem IpAddress.less_iff : address.less other = true ↔ address.key < other.key := by
  cases address with
  | undefined => contradiction
  | v4 address =>
    cases other with
    | v4 other =>
      unfold less key Ipv4Address.less
      rw [lexPair_lt_iff, decide_eq_true_eq]
      omega
    | undefined | v6 _ => contradiction
  | v6 address =>
    cases other with
    | v6 other => exact Ipv6Address.less_iff address other
    | undefined | v4 _ => contradiction

theorem IpAddress.equals_iff : address.equals other = true ↔ address.key = other.key := by
  cases address with
  | undefined => contradiction
  | v4 address =>
    cases other with
    | v4 other =>
      unfold equals key Ipv4Address.equals
      rw [lexPair_eq_iff, beq_iff_eq, load_vector_iff]
      omega
    | undefined | v6 _ => contradiction
  | v6 =>
    cases other with
    | v6 =>
      unfold equals key Ipv6Address.equals
      rw [lexPair_eq_iff, Bool.and_eq_true, Bool.and_eq_true, beq_iff_eq, beq_iff_eq,
        beq_iff_eq, load_vector_iff, load_vector_iff, UInt32.toNat_inj, and_assoc]
    | undefined | v4 _ => contradiction

end

/-- Addresses of different types are neither less nor equal. -/
theorem IpAddress.incomparable (differs : address.type ≠ other.type) :
    address.less other = false ∧ address.equals other = false := by
  cases address <;> cases other <;> first | exact ⟨rfl, rfl⟩ | contradiction

theorem IpAddress.less_self_of_undefined
    (undefined : address.type = .undefined) : address.less address = true := by
  cases address with
  | undefined => rfl
  | v4 _ | v6 _ => contradiction

def IpAddress.Uniform (values : Set IpAddress) : Prop :=
  ∀ a ∈ values, ∀ b ∈ values, a.type = b.type ∧ a.type ≠ .undefined

theorem IpAddress.orders_iff (values : Set IpAddress) :
    Orders less equals values ↔ Uniform values := by
  constructor
  · intro orders a inA b inB
    constructor
    · by_contra differs
      have same := orders.comparable inA inB (incomparable differs).1
        (incomparable (Ne.symm differs)).1
      rw [(incomparable differs).2] at same
      contradiction
    · intro undefined
      have irreflexive := orders.irreflexive a inA
      rw [less_self_of_undefined undefined] at irreflexive
      contradiction
  · intro uniform
    exact orders_of_key key
      (fun a inA b inB => less_iff (uniform a inA b inB).1 (uniform a inA b inB).2)
      (fun a inA b inB => equals_iff (uniform a inA b inB).1 (uniform a inA b inB).2)

variable {left right : List Int8}

theorem sameCharacters_iff (sameLength : left.length = right.length) :
    sameCharacters left right = true ↔ left = right := by
  induction left generalizing right with
  | nil =>
    have noRight : right = [] := List.eq_nil_of_length_eq_zero sameLength.symm
    simp [noRight, sameCharacters]
  | cons _ first1 ih =>
    cases right with
    | nil => contradiction
    | cons _ first2 =>
      have restLength : first1.length = first2.length := Nat.succ.inj sameLength
      unfold sameCharacters
      rw [List.cons.injEq]
      split
      · rename_i differs
        simp [differs]
      · rename_i same
        rw [ih restLength, not_not.mp same]
        exact (and_iff_right rfl).symm

def characters (text : List Int8) : List ℤ := text.map Int8.toInt

theorem characters_inj : characters left = characters right ↔ left = right :=
  List.map_inj_right fun _ _ same => Int8.toInt_inj.mp same

theorem lessCharacters_iff (left right : List Int8) :
    lessCharacters left right = true ↔ characters left < characters right := by
  unfold characters
  induction left generalizing right with
  | nil =>
    cases right with
    | nil | cons _ _ => simp [lessCharacters]
  | cons ch1 _ ih =>
    cases right with
    | nil => simp [lessCharacters]
    | cons ch2 =>
      unfold lessCharacters
      rw [List.map_cons, List.map_cons, List.cons_lt_cons_iff]
      split
      · rename_i isLess
        simp only [true_iff]
        exact .inl (Int8.lt_iff_toInt_lt.mp isLess)
      · rename_i notLess
        rw [Int8.lt_iff_toInt_lt] at notLess
        split
        · rename_i isGreater
          rw [Int8.lt_iff_toInt_lt] at isGreater
          simp only [Bool.false_eq_true, false_iff]
          omega
        · rename_i notGreater
          rw [Int8.lt_iff_toInt_lt] at notGreater
          have same : ch1.toInt = ch2.toInt := by omega
          rw [ih, same]
          simp

theorem DomainName.equals_iff (name other : DomainName) :
    name.equals other = true ↔ name.text = other.text := by
  unfold DomainName.equals
  split
  · rename_i differs
    simp only [Bool.false_eq_true, false_iff]
    intro same
    exact differs (by rw [same])
  · rename_i sameLength
    exact sameCharacters_iff (not_not.mp sameLength)

theorem DomainName.orders (values : Set DomainName) :
    Orders DomainName.less DomainName.equals values := by
  refine orders_of_key (fun name => characters name.text) ?_ ?_
  · intro a _ b _
    exact lessCharacters_iff a.text b.text
  · intro a _ b _
    rw [characters_inj]
    exact DomainName.equals_iff a b

def LocalName.Distinct (values : Set LocalName) : Prop :=
  ∀ a ∈ values, ∀ b ∈ values, a.path = b.path -> a.isAbstract = b.isAbstract

theorem LocalName.equals_iff (name other : LocalName) :
    name.equals other = true ↔ name.path = other.path ∧ name.isAbstract = other.isAbstract := by
  unfold equals
  split
  · rename_i differs
    simp only [Bool.false_eq_true, false_iff, not_and]
    intro same
    exact absurd (by rw [same]) differs
  · rename_i sameLength
    split
    · rename_i differs
      simp [differs]
    · rename_i sameNamespace
      rw [sameCharacters_iff (not_not.mp sameLength), not_not.mp sameNamespace]
      exact (and_iff_left rfl).symm

theorem LocalName.orders_iff (values : Set LocalName) :
    Orders less equals values ↔ Distinct values := by
  constructor
  · intro orders a inA b inB samePath
    have notLess : ∀ c d : LocalName, c.path = d.path -> c.less d = false := by
      intro c d same
      rw [Bool.eq_false_iff]
      intro isLess
      have below := (lessCharacters_iff c.path d.path).mp isLess
      rw [same] at below
      exact lt_irrefl _ below
    have same := orders.comparable inA inB (notLess a b samePath) (notLess b a samePath.symm)
    exact ((equals_iff a b).mp same).2
  · intro distinct
    refine orders_of_key (fun name => characters name.path) ?_ ?_
    · intro a _ b _
      exact lessCharacters_iff a.path b.path
    · intro a inA b inB
      rw [equals_iff, characters_inj]
      exact ⟨fun both => both.1, fun samePath => ⟨samePath, distinct a inA b inB samePath⟩⟩

/-! ## Internet endpoints -/

/-- No host is undefined; endpoints with hosts of different types have different
ports; and no port of the one type lies between two ports of the other type
whose hosts are ordered the other way. -/
structure IpEndpoint.Separated (values : Set IpEndpoint) : Prop where
  defined : ∀ a ∈ values, a.host.type ≠ .undefined
  apart : ∀ a ∈ values, ∀ b ∈ values, a.host.type ≠ b.host.type -> a.port ≠ b.port
  nested : ∀ a ∈ values, ∀ b ∈ values, ∀ c ∈ values, a.host.type = b.host.type ->
    a.host.type ≠ c.host.type -> a.host.less b.host = true ->
    ¬ (b.port < c.port ∧ c.port < a.port)

variable {endpoint other : IpEndpoint}

theorem IpEndpoint.less_iff_of_same (sameType : endpoint.host.type = other.host.type)
    (defined : endpoint.host.type ≠ .undefined) :
    endpoint.less other = true ↔ endpoint.host.key < other.host.key ∨
      endpoint.host.key = other.host.key ∧ endpoint.port < other.port := by
  unfold less
  split
  · rename_i isLess
    simp only [true_iff]
    exact .inl ((less_iff sameType defined).mp isLess)
  · rename_i notLess
    rw [less_iff sameType defined] at notLess
    split
    · rename_i isGreater
      rw [less_iff sameType.symm (sameType ▸ defined)] at isGreater
      simp only [Bool.false_eq_true, false_iff, not_or, not_and]
      exact ⟨notLess, fun same => absurd same (ne_of_gt isGreater)⟩
    · rename_i notGreater
      rw [less_iff sameType.symm (sameType ▸ defined)] at notGreater
      have same : endpoint.host.key = other.host.key :=
        le_antisymm (not_lt.mp notGreater) (not_lt.mp notLess)
      simp [same]

theorem IpEndpoint.less_iff_of_ne (differs : endpoint.host.type ≠ other.host.type) :
    endpoint.less other = true ↔ endpoint.port < other.port := by
  unfold less
  rw [(incomparable differs).1, (incomparable (Ne.symm differs)).1]
  simp

theorem IpEndpoint.equals_iff_of_same (sameType : endpoint.host.type = other.host.type)
    (defined : endpoint.host.type ≠ .undefined) : endpoint.equals other = true ↔
      endpoint.host.key = other.host.key ∧ endpoint.port = other.port := by
  unfold equals
  rw [Bool.and_eq_true, equals_iff sameType defined, beq_iff_eq]

theorem IpEndpoint.not_equals_of_ne (differs : endpoint.host.type ≠ other.host.type) :
    endpoint.equals other = false := by
  unfold equals
  rw [(incomparable differs).2, Bool.false_and]

variable {values : Set IpEndpoint}

theorem IpEndpoint.separated_of_orders (orders : Orders less equals values) : Separated values := by
  have defined : ∀ a ∈ values, a.host.type ≠ .undefined := by
    intro a inA undefined
    have irreflexive := orders.irreflexive a inA
    unfold less at irreflexive
    rw [if_pos (less_self_of_undefined undefined)] at irreflexive
    contradiction
  refine ⟨defined, ?_, ?_⟩
  · intro a inA b inB differs samePort
    have notLess : a.less b = false := by
      rw [Bool.eq_false_iff, Ne, less_iff_of_ne differs, samePort]
      exact lt_irrefl _
    have notGreater : b.less a = false := by
      rw [Bool.eq_false_iff, Ne, less_iff_of_ne (Ne.symm differs), samePort]
      exact lt_irrefl _
    have same := orders.comparable inA inB notLess notGreater
    rw [not_equals_of_ne differs] at same
    contradiction
  · rintro a inA b inB c inC sameType differs hostLess ⟨below, above⟩
    have first : a.less b = true := by
      unfold less
      rw [if_pos hostLess]
    have second : b.less c = true := (less_iff_of_ne (sameType ▸ differs)).mpr below
    have third := orders.transitive a inA b inB c inC first second
    exact lt_asymm above ((less_iff_of_ne differs).mp third)

theorem IpAddressType.eq_of_ne {a b c : IpAddressType} (first : a ≠ b) (second : b ≠ c)
    (definedA : a ≠ .undefined) (definedB : b ≠ .undefined) (definedC : c ≠ .undefined) :
    a = c := by
  cases a <;> cases b <;> cases c <;> first | rfl | contradiction

theorem IpEndpoint.transitive_of_separated (separated : Separated values)
    {a b c : IpEndpoint} (inA : a ∈ values)
    (inB : b ∈ values) (inC : c ∈ values) (first : a.less b = true) (second : b.less c = true) :
    a.less c = true := by
  have definedA := separated.defined a inA
  have definedB := separated.defined b inB
  have definedC := separated.defined c inC
  by_cases sameAB : a.host.type = b.host.type
  · rw [less_iff_of_same sameAB definedA] at first
    by_cases sameBC : b.host.type = c.host.type
    · rw [less_iff_of_same sameBC definedB] at second
      rw [less_iff_of_same (sameAB.trans sameBC) definedA]
      rcases first with hostFirst | ⟨hostSame, portFirst⟩
      · rcases second with hostSecond | ⟨hostSame, _⟩
        · exact .inl (lt_trans hostFirst hostSecond)
        · exact .inl (hostSame ▸ hostFirst)
      · rcases second with hostSecond | ⟨hostSame', portSecond⟩
        · exact .inl (hostSame ▸ hostSecond)
        · exact .inr ⟨hostSame.trans hostSame', lt_trans portFirst portSecond⟩
    · have differs : a.host.type ≠ c.host.type := sameAB ▸ sameBC
      rw [less_iff_of_ne sameBC] at second
      rw [less_iff_of_ne differs]
      rcases first with hostFirst | ⟨_, portFirst⟩
      · -- the ports may be ordered against the hosts, and `c` is not between them
        have between := separated.nested a inA b inB c inC sameAB differs
          ((less_iff sameAB definedA).mpr hostFirst)
        have apart := separated.apart a inA c inC differs
        rw [Ne, ← toNat_inj] at apart
        simp only [lt_iff_toNat_lt] at between second ⊢
        omega
      · exact lt_trans portFirst second
  · rw [less_iff_of_ne sameAB] at first
    by_cases sameBC : b.host.type = c.host.type
    · have differs : a.host.type ≠ c.host.type := sameBC ▸ sameAB
      rw [less_iff_of_same sameBC definedB] at second
      rw [less_iff_of_ne differs]
      rcases second with hostSecond | ⟨_, portSecond⟩
      · have between := separated.nested b inB c inC a inA sameBC (Ne.symm sameAB)
          ((less_iff sameBC definedB).mpr hostSecond)
        have apart := separated.apart a inA c inC differs
        rw [Ne, ← toNat_inj] at apart
        simp only [lt_iff_toNat_lt] at between first ⊢
        omega
      · exact lt_trans first portSecond
    · have sameAC := IpAddressType.eq_of_ne sameAB sameBC definedA definedB definedC
      rw [less_iff_of_ne sameBC] at second
      rw [less_iff_of_same sameAC definedA]
      rcases lt_trichotomy a.host.key c.host.key with isLess | same | isGreater
      · exact .inl isLess
      · exact .inr ⟨same, lt_trans first second⟩
      · have between := separated.nested c inC a inA b inB sameAC.symm (Ne.symm sameBC)
          ((less_iff sameAC.symm definedC).mpr isGreater)
        exact absurd ⟨first, second⟩ between

theorem IpEndpoint.exactlyOne_of_separated (separated : Separated values)
    {a b : IpEndpoint} (inA : a ∈ values)
    (inB : b ∈ values) : ExactlyOne (a.less b) (b.less a) (a.equals b) := by
  by_cases sameType : a.host.type = b.host.type
  · have definedA := separated.defined a inA
    have definedB := separated.defined b inB
    have lexLess : ∀ c d : IpEndpoint, c.host.type = d.host.type -> c.host.type ≠ .undefined ->
        (c.less d = true ↔ (toLex (c.host.key, c.port.toNat) : _ ×ₗ ℕ) <
          toLex (d.host.key, d.port.toNat)) := by
      intro c d same defined
      rw [less_iff_of_same same defined, Prod.Lex.toLex_lt_toLex, lt_iff_toNat_lt]
    refine exactlyOne_of_lt_iff _ _ (lexLess a b sameType definedA)
      (lexLess b a sameType.symm definedB) ?_
    rw [equals_iff_of_same sameType definedA, toLex_inj, Prod.mk.injEq, toNat_inj]
  · have apart := separated.apart a inA b inB sameType
    rw [Ne, ← toNat_inj] at apart
    refine exactlyOne_of_lt_iff a.port.toNat b.port.toNat ?_ ?_ ?_
    · rw [less_iff_of_ne sameType, lt_iff_toNat_lt]
    · rw [less_iff_of_ne (Ne.symm sameType), lt_iff_toNat_lt]
    · rw [not_equals_of_ne sameType]
      simp [apart]

theorem IpEndpoint.orders_iff (values : Set IpEndpoint) :
    Orders less equals values ↔ Separated values := by
  constructor
  · exact separated_of_orders
  · intro separated
    refine ⟨?_, ?_, ?_⟩
    · intro a inA
      rcases exactlyOne_of_separated separated inA inA with
        ⟨isLess, notLess, _⟩ | ⟨notLess, _⟩ | ⟨notLess, _⟩
      · rw [isLess] at notLess
        contradiction
      · exact notLess
      · exact notLess
    · intro a inA b inB c inC
      exact transitive_of_separated separated inA inB inC
    · intro a inA b inB
      exact exactlyOne_of_separated separated inA inB

/-! ## Endpoints and hosts -/

def Endpoint.Uniform (values : Set Endpoint) : Prop :=
  ((∀ a ∈ values, ∃ endpoint, a = .ip endpoint) ∧
      IpEndpoint.Separated {endpoint | .ip endpoint ∈ values}) ∨
    ((∀ a ∈ values, ∃ name, a = .localName name) ∧
      LocalName.Distinct {name | .localName name ∈ values})

theorem Endpoint.orders_iff (values : Set Endpoint) :
    Orders less equals values ↔ Uniform values := by
  constructor
  · intro orders
    have defined : undefined ∉ values := fun mem => by
      have irreflexive := orders.irreflexive _ mem
      contradiction
    by_cases someIp : ∃ endpoint, ip endpoint ∈ values
    · obtain ⟨endpoint, inValues⟩ := someIp
      have allIp : ∀ a ∈ values, ∃ endpoint, a = .ip endpoint := by
        intro a mem
        cases a with
        | undefined => contradiction
        | ip other => exact ⟨other, rfl⟩
        | localName name =>
          have same := orders.comparable inValues mem rfl rfl
          contradiction
      exact .inl ⟨allIp, (IpEndpoint.orders_iff _).mp ((orders_image ip values allIp).mp orders)⟩
    · have allLocal : ∀ a ∈ values, ∃ name, a = .localName name := by
        intro a mem
        cases a with
        | undefined => contradiction
        | ip other => exact absurd ⟨other, mem⟩ someIp
        | localName name => exact ⟨name, rfl⟩
      exact .inr ⟨allLocal,
        (LocalName.orders_iff _).mp ((orders_image localName values allLocal).mp orders)⟩
  · rintro (⟨allIp, separated⟩ | ⟨allLocal, distinct⟩)
    · exact (orders_image ip values allIp).mpr ((IpEndpoint.orders_iff _).mpr separated)
    · exact (orders_image localName values allLocal).mpr ((LocalName.orders_iff _).mpr distinct)

def Host.Uniform (values : Set Host) : Prop :=
  (∀ a ∈ values, ∃ name, a = .domainName name) ∨
    ((∀ a ∈ values, ∃ address, a = .ip address) ∧
      IpAddress.Uniform {address | .ip address ∈ values}) ∨
    ((∀ a ∈ values, ∃ name, a = .localName name) ∧
      LocalName.Distinct {name | .localName name ∈ values})

theorem Host.orders_iff (values : Set Host) : Orders less equals values ↔ Uniform values := by
  constructor
  · intro orders
    have defined : undefined ∉ values := fun mem => by
      have irreflexive := orders.irreflexive _ mem
      contradiction
    by_cases someDomain : ∃ name, domainName name ∈ values
    · obtain ⟨name, inValues⟩ := someDomain
      refine .inl ?_
      intro a mem
      cases a with
      | undefined => contradiction
      | domainName other => exact ⟨other, rfl⟩
      | ip _ | localName _ =>
        have same := orders.comparable inValues mem rfl rfl
        contradiction
    · by_cases someIp : ∃ address, ip address ∈ values
      · obtain ⟨address, inValues⟩ := someIp
        have allIp : ∀ a ∈ values, ∃ address, a = .ip address := by
          intro a mem
          cases a with
          | undefined => contradiction
          | domainName other => exact absurd ⟨other, mem⟩ someDomain
          | ip other => exact ⟨other, rfl⟩
          | localName =>
            have same := orders.comparable inValues mem rfl rfl
            contradiction
        exact .inr (.inl
          ⟨allIp, (IpAddress.orders_iff _).mp ((orders_image ip values allIp).mp orders)⟩)
      · have allLocal : ∀ a ∈ values, ∃ name, a = .localName name := by
          intro a mem
          cases a with
          | undefined => contradiction
          | domainName other => exact absurd ⟨other, mem⟩ someDomain
          | ip other => exact absurd ⟨other, mem⟩ someIp
          | localName name => exact ⟨name, rfl⟩
        exact .inr (.inr ⟨allLocal,
            (LocalName.orders_iff _).mp ((orders_image localName values allLocal).mp orders)⟩)
  · rintro (allDomain | ⟨allIp, uniform⟩ | ⟨allLocal, distinct⟩)
    · exact (orders_image domainName values allDomain).mpr (DomainName.orders _)
    · exact (orders_image ip values allIp).mpr ((IpAddress.orders_iff _).mpr uniform)
    · exact (orders_image localName values allLocal).mpr ((LocalName.orders_iff _).mpr distinct)

/-- When `less` is a strict order that agrees with `equals`, for sets of values
of each of the five types. -/
theorem identities_ordered_iff (addresses : Set IpAddress) (ipEndpoints : Set IpEndpoint)
    (endpoints : Set Endpoint) (hosts : Set Host) (names : Set LocalName) :
    (Orders IpAddress.less IpAddress.equals addresses ↔ IpAddress.Uniform addresses) ∧
      (Orders IpEndpoint.less IpEndpoint.equals ipEndpoints ↔ IpEndpoint.Separated ipEndpoints) ∧
      (Orders Endpoint.less Endpoint.equals endpoints ↔ Endpoint.Uniform endpoints) ∧
      (Orders Host.less Host.equals hosts ↔ Host.Uniform hosts) ∧
      (Orders LocalName.less LocalName.equals names ↔ LocalName.Distinct names) :=
  ⟨orders_iff addresses, orders_iff ipEndpoints,
    orders_iff endpoints, orders_iff hosts, orders_iff names⟩

/-- The loopback addresses of the two versions are neither less nor equal. -/
theorem loopbacks_unordered : ¬ Orders IpAddress.less IpAddress.equals
      {.v4 ⟨#v[127, 0, 0, 1]⟩, .v6 ⟨#v[0, 0, 0, 0, 0, 0, 0, 0], #v[0, 0, 0, 0, 0, 0, 0, 1], 0⟩}
    := by
  intro orders
  have same := orders.comparable (Set.mem_insert _ _) (Set.mem_insert_of_mem _ rfl) rfl rfl
  contradiction

end NtfCore.Ntsa
