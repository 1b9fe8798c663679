import ByteListing.Proofs.Bytes.PaddedGroups
import ByteListing.Proofs.Der.DottedText

/-! # Object identifiers and their arcs

Arcs are encoded as numbers (`Encodes`), and numbers are written one after the other, each behind
any number of zero groups (`Written`).  A body has a dotted form exactly if it is written in this
way with numbers below `2 ^ 64`, and the dotted form is that of the arcs.  What has no dotted form
is told without the reader, by the numbers in a body (`NumberIn`): it is empty, or its last number
does not end, or one of its numbers is too large. -/
set_option autoImplicit false
namespace ByteListing.Der.ObjectIdentifier

open ByteListing.Base128 (Terminated continues mostFirst mostFirstGroups paddedGroups)

/-- The numbers that arcs are encoded as.  The first two arcs of an absolute identifier share
one. -/
inductive Encodes : (relative : Bool) → (arcs numbers : List Nat) → Prop
  | relative {first : Nat} {rest : List Nat} : Encodes true (first :: rest) (first :: rest)
  | absolute {root second : Nat} {rest : List Nat} : (root < 2 ∧ second < 40) ∨ root = 2 →
      Encodes false (root :: second :: rest) ((40 * root + second) :: rest)

/-- Octets in which numbers stand one after the other, each behind any number of zero groups. -/
inductive Written : (numbers : List Nat) → Bytes → Prop
  | nil : Written [] []
  | cons {number : Nat} {numbers : List Nat} {rest : Bytes} (zeros : Nat) :
      Written numbers rest → Written (number :: numbers) (paddedGroups zeros number ++ rest)

/-- The octets of a number in a body.  It begins with the body or where another number has
ended. -/
inductive NumberIn : (body groups : Bytes) → Prop
  | intro {front groups back : Bytes} : (∀ last ∈ front.getLast?, continues last = false) →
      Terminated groups → NumberIn (front ++ (groups ++ back)) groups

def Unpadded (body : Bytes) : Prop := ∀ groups, NumberIn body groups → groups.head? ≠ some 0x80

/-! ## Arcs -/

theorem firstArcs_shared {root second : Nat} (allowed : (root < 2 ∧ second < 40) ∨ root = 2) :
    firstArcs (40 * root + second) = [root, second] := by
  rw [firstArcs]
  rcases allowed with ⟨small, secondSmall⟩ | rfl
  · have casesOfRoot : root = 0 ∨ root = 1 := by omega
    rcases casesOfRoot with rfl | rfl
    · rw [if_pos (by omega), Nat.mul_zero, Nat.zero_add]
    · rw [if_neg (by omega), if_pos (by omega), Nat.mul_one, Nat.add_sub_cancel_left]
  · rw [if_neg (by omega), if_neg (by omega), Nat.add_sub_cancel_left]

theorem exists_firstArcs (number : Nat) : ∃ root second,
    ((root < 2 ∧ second < 40) ∨ root = 2) ∧ number = 40 * root + second := by
  by_cases below : number < 80
  · exact ⟨number / 40, number % 40, .inl ⟨by omega, Nat.mod_lt _ (by decide)⟩, by omega⟩
  · exact ⟨2, number - 80, .inr rfl, by omega⟩

theorem encodes_iff {relative : Bool} {found numbers : List Nat} :
    Encodes relative found numbers ↔ numbers ≠ [] ∧ arcs relative numbers = found := by
  constructor
  · rintro (_ | allowed)
    · exact ⟨nofun, rfl⟩
    · refine ⟨nofun, ?_⟩
      rw [arcs, if_neg Bool.false_ne_true, firstArcs_shared allowed]
      rfl
  · rintro ⟨occupied, rfl⟩
    obtain ⟨first, rest, rfl⟩ := List.exists_cons_of_ne_nil occupied
    cases relative with
    | true => exact .relative
    | false =>
        obtain ⟨root, second, allowed, rfl⟩ := exists_firstArcs first
        rw [arcs, if_neg Bool.false_ne_true, firstArcs_shared allowed]
        exact .absolute allowed

theorem Encodes.numbers_unique {relative : Bool} {found numbers others : List Nat}
    (encoded : Encodes relative found numbers) (otherEncoded : Encodes relative found others) :
    numbers = others := by
  cases encoded with
  | relative =>
      cases otherEncoded
      rfl
  | absolute =>
      cases otherEncoded
      rfl

/-! ## Bodies -/

theorem Written.of_terminated {groups rest : Bytes} {numbers : List Nat}
    (terminated : Terminated groups) (written : Written numbers rest) :
    Written (mostFirst groups :: numbers) (groups ++ rest) := by
  obtain ⟨zeros, padded⟩ := Base128.terminated_iff_padded.mp terminated
  rw [padded, Base128.mostFirst_paddedGroups]
  exact .cons zeros written

theorem numbers?_eq_some_iff {body : Bytes} {numbers : List Nat} :
    numbers? body = some numbers ↔ Written numbers body ∧ ∀ number ∈ numbers, number < 2 ^ 64 := by
  constructor
  · intro success
    fun_induction numbers? body generalizing numbers with
    | case1 =>
        obtain rfl := Option.some.inj success
        exact ⟨.nil, nofun⟩
    | case2 => cases success
    | case3 byte rest number remaining found inductionHypothesis =>
        obtain ⟨others, later, rfl⟩ := Option.map_eq_some_iff.mp success
        obtain ⟨groups, whole, terminated, rfl, small⟩ := Base128.mostFirst?_iff.mp found
        obtain ⟨written, othersSmall⟩ := inductionHypothesis later
        rw [whole]
        exact ⟨written.of_terminated terminated, List.forall_mem_cons.mpr ⟨small, othersSmall⟩⟩
  · rintro ⟨written, small⟩
    induction written with
    | nil => rw [numbers?]
    | @cons number numbers rest zeros _ inductionHypothesis =>
        rw [List.forall_mem_cons] at small
        have value := Base128.mostFirst_paddedGroups zeros number
        have terminated := Base128.terminated_paddedGroups zeros number
        have read : Base128.mostFirst? (Nat.pow 2 64) 0 (paddedGroups zeros number ++ rest) =
            some (number, rest) :=
          Base128.mostFirst?_iff.mpr ⟨_, rfl, terminated, value.symm, small.1⟩
        obtain ⟨byte, others, listed⟩ := List.exists_cons_of_ne_nil
          (List.append_ne_nil_of_left_ne_nil terminated.ne_nil rest)
        rw [listed] at read ⊢
        rw [numbers?]
        split
        · rename_i stuck
          rw [read] at stuck
          cases stuck
        · rename_i foundNumber remaining found
          rw [read] at found
          obtain ⟨rfl, rfl⟩ := Prod.mk.inj (Option.some.inj found)
          rw [inductionHypothesis small.2]
          rfl

theorem last_ends_of_terminated {groups : Bytes} (terminated : Terminated groups) :
    ∀ last ∈ groups.getLast?, continues last = false := by
  obtain ⟨front, last, rfl, -, ends⟩ := terminated.exists_concat
  intro other member
  rw [List.getLast?_concat] at member
  cases member
  exact ends

theorem fresh_append {front further : Bytes}
    (fresh : ∀ last ∈ front.getLast?, continues last = false)
    (furtherFresh : ∀ last ∈ further.getLast?, continues last = false) :
    ∀ last ∈ (front ++ further).getLast?, continues last = false := by
  intro last member
  rw [List.getLast?_append] at member
  cases furtherLast : further.getLast? with
  | none =>
      rw [furtherLast, Option.none_or] at member
      exact fresh last member
  | some other =>
      rw [furtherLast, Option.some_or] at member
      exact furtherFresh last (furtherLast.trans member)

theorem NumberIn.first {groups : Bytes} (terminated : Terminated groups) (rest : Bytes) :
    NumberIn (groups ++ rest) groups :=
  @NumberIn.intro [] groups rest nofun terminated

theorem NumberIn.behind {first rest groups : Bytes} (terminated : Terminated first)
    (inside : NumberIn rest groups) : NumberIn (first ++ rest) groups := by
  obtain @⟨front, groups, back, fresh, groupsTerminated⟩ := inside
  rw [← List.append_assoc]
  exact .intro (fresh_append (last_ends_of_terminated terminated) fresh) groupsTerminated

theorem Written.last_ends {numbers : List Nat} {body : Bytes} (written : Written numbers body) :
    ∀ last ∈ body.getLast?, continues last = false := by
  induction written with
  | nil => nofun
  | @cons number numbers rest zeros _ inductionHypothesis =>
      have terminated := Base128.terminated_paddedGroups zeros number
      exact fresh_append (last_ends_of_terminated terminated) inductionHypothesis

theorem exists_written {body : Bytes} (whole : ∀ last ∈ body.getLast?, continues last = false) :
    ∃ numbers, Written numbers body := by
  induction body with
  | nil => exact ⟨[], .nil⟩
  | cons byte rest inductionHypothesis =>
      cases rest with
      | nil => exact ⟨_, .of_terminated (.last (whole byte rfl)) .nil⟩
      | cons second others =>
          rw [List.getLast?_cons_cons] at whole
          obtain ⟨numbers, written⟩ := inductionHypothesis whole
          cases goes : continues byte with
          | false => exact ⟨_, .of_terminated (.last goes) written⟩
          | true =>
              -- The octet belongs to the number behind it.
              generalize listed : second :: others = behind at written
              cases written with
              | nil => cases listed
              | @cons number numbers rest zeros later =>
                  have longer := Terminated.more goes (Base128.terminated_paddedGroups zeros number)
                  exact ⟨_, .of_terminated longer later⟩

theorem not_numberIn_nil {groups : Bytes} : ¬ NumberIn [] groups := by
  intro inside
  generalize listed : ([] : Bytes) = body at inside
  obtain @⟨front, groups, back, -, terminated⟩ := inside
  have nothing := (List.append_eq_nil_iff.mp (List.append_eq_nil_iff.mp listed.symm).2).1
  exact terminated.ne_nil nothing

theorem numberIn_append {first rest groups : Bytes} (terminated : Terminated first)
    (inside : NumberIn (first ++ rest) groups) : groups = first ∨ NumberIn rest groups := by
  generalize listed : first ++ rest = body at inside
  obtain @⟨front, groups, back, fresh, groupsTerminated⟩ := inside
  by_cases start : front = []
  · subst start
    exact .inl (groupsTerminated.append_inj terminated listed.symm).1
  · obtain ⟨further, rfl, rfl⟩ := terminated.split_fresh start fresh listed.symm
    refine .inr (.intro ?_ groupsTerminated)
    intro last member
    refine fresh last ?_
    rw [List.getLast?_append, member]
    rfl

theorem Written.mem_of_numberIn {numbers : List Nat} {body groups : Bytes}
    (written : Written numbers body) (inside : NumberIn body groups) :
    mostFirst groups ∈ numbers := by
  induction written with
  | nil => exact absurd inside not_numberIn_nil
  | @cons number numbers rest zeros _ inductionHypothesis =>
      rcases numberIn_append (Base128.terminated_paddedGroups zeros number) inside with rfl | later
      · rw [Base128.mostFirst_paddedGroups]
        exact List.mem_cons_self
      · exact List.mem_cons_of_mem number (inductionHypothesis later)

theorem Written.exists_numberIn {numbers : List Nat} {body : Bytes} (written : Written numbers body)
    {number : Nat} (listed : number ∈ numbers) :
    ∃ groups, NumberIn body groups ∧ mostFirst groups = number := by
  induction written with
  | nil => cases listed
  | @cons first numbers rest zeros _ inductionHypothesis =>
      have terminated := Base128.terminated_paddedGroups zeros first
      rcases List.mem_cons.mp listed with rfl | later
      · exact ⟨_, .first terminated rest, Base128.mostFirst_paddedGroups zeros _⟩
      · obtain ⟨groups, inside, value⟩ := inductionHypothesis later
        exact ⟨groups, inside.behind terminated, value⟩

/-- What is not a sequence of numbers below the bound ends within a number or holds one that is too
large. -/
theorem numbers?_eq_none_iff {body : Bytes} : numbers? body = none ↔
    (∃ last ∈ body.getLast?, continues last = true) ∨
      ∃ groups, NumberIn body groups ∧ 2 ^ 64 ≤ mostFirst groups := by
  constructor
  · intro stuck
    by_cases whole : ∀ last ∈ body.getLast?, continues last = false
    · obtain ⟨numbers, written⟩ := exists_written whole
      have notSmall : ¬ ∀ number ∈ numbers, number < 2 ^ 64 := fun small => by
        rw [numbers?_eq_some_iff.mpr ⟨written, small⟩] at stuck
        cases stuck
      simp only [Classical.not_forall, exists_prop, Nat.not_lt] at notSmall
      obtain ⟨number, listed, large⟩ := notSmall
      obtain ⟨groups, inside, rfl⟩ := written.exists_numberIn listed
      exact .inr ⟨groups, inside, large⟩
    · simp only [Classical.not_forall, exists_prop, Bool.not_eq_false] at whole
      exact .inl whole
  · intro malformed
    cases read : numbers? body with
    | none => rfl
    | some numbers =>
        obtain ⟨written, small⟩ := numbers?_eq_some_iff.mp read
        rcases malformed with ⟨last, member, goes⟩ | ⟨groups, inside, large⟩
        · rw [written.last_ends last member] at goes
          cases goes
        · exact absurd (small _ (written.mem_of_numberIn inside)) (Nat.not_lt.mpr large)

theorem decode?_eq_none_iff {relative : Bool} {body : Bytes} :
    decode? relative body = none ↔ body = [] ∨ numbers? body = none := by
  constructor
  · intro stuck
    cases read : numbers? body with
    | none => exact .inr rfl
    | some numbers =>
        cases numbers with
        | nil =>
            obtain ⟨written, -⟩ := numbers?_eq_some_iff.mp read
            cases written
            exact .inl rfl
        | cons number others =>
            rw [decode?, read] at stuck
            cases stuck
  · rintro (rfl | stuck)
    · rw [decode?, numbers?]
    · rw [decode?, stuck]

theorem written_flatMap (numbers : List Nat) :
    Written numbers (numbers.flatMap mostFirstGroups) := by
  induction numbers with
  | nil => exact .nil
  | cons number numbers inductionHypothesis => exact .cons 0 inductionHypothesis

theorem unpadded_flatMap (numbers : List Nat) : Unpadded (numbers.flatMap mostFirstGroups) := by
  induction numbers with
  | nil => exact fun _ inside => absurd inside not_numberIn_nil
  | cons number numbers inductionHypothesis =>
      intro groups inside
      rw [List.flatMap_cons] at inside
      rcases numberIn_append (Base128.terminated_paddedGroups 0 number) inside with rfl | later
      · exact Base128.head?_mostFirstGroups_ne number
      · exact inductionHypothesis groups later

theorem Written.unpadded_iff {numbers : List Nat} {body : Bytes} (written : Written numbers body) :
    Unpadded body ↔ body = numbers.flatMap mostFirstGroups := by
  refine ⟨fun unpadded => ?_, fun canonical => canonical ▸ unpadded_flatMap numbers⟩
  induction written with
  | nil => rfl
  | @cons number numbers rest zeros _ inductionHypothesis =>
      have terminated := Base128.terminated_paddedGroups zeros number
      have restUnpadded : Unpadded rest :=
        fun groups inside => unpadded groups (inside.behind terminated)
      rw [Base128.paddedGroups_of_head (unpadded _ (.first terminated rest)), List.flatMap_cons,
        ← inductionHypothesis restUnpadded]

/-- The reader of object identifiers gives back the arcs that are written, with any padding, and
refuses what is malformed and nothing else.  Unpadded bodies are told by their dotted text. -/
theorem identifiers_read_back (relative : Bool) :
    (∀ body text, decode? relative body = some text ↔ ∃ arcs numbers,
      Encodes relative arcs numbers ∧ (∀ number ∈ numbers, number < 2 ^ 64) ∧
        Written numbers body ∧ text = dotted arcs) ∧
    (∀ body, decode? relative body = none ↔ body = [] ∨
      (∃ last ∈ body.getLast?, continues last = true) ∨
        ∃ groups, NumberIn body groups ∧ 2 ^ 64 ≤ mostFirst groups) ∧
    ∀ one other text, Unpadded one → Unpadded other → decode? relative one = some text →
      decode? relative other = some text → one = other := by
  have decoded : ∀ body text, decode? relative body = some text ↔ ∃ arcs numbers,
      Encodes relative arcs numbers ∧ (∀ number ∈ numbers, number < 2 ^ 64) ∧
        Written numbers body ∧ text = dotted arcs := by
    intro body text
    rw [decode?_eq_some_iff]
    constructor
    · rintro ⟨numbers, read, occupied, rfl⟩
      obtain ⟨written, small⟩ := numbers?_eq_some_iff.mp read
      exact ⟨_, numbers, encodes_iff.mpr ⟨occupied, rfl⟩, small, written, rfl⟩
    · rintro ⟨found, numbers, encoded, small, written, rfl⟩
      obtain ⟨occupied, rfl⟩ := encodes_iff.mp encoded
      exact ⟨numbers, numbers?_eq_some_iff.mpr ⟨written, small⟩, occupied, rfl⟩
  refine ⟨decoded, fun body => ?_, ?_⟩
  · rw [decode?_eq_none_iff, numbers?_eq_none_iff]
  · intro one other text oneUnpadded otherUnpadded oneText otherText
    obtain ⟨found, numbers, encoded, -, written, rfl⟩ := (decoded one text).mp oneText
    obtain ⟨others, otherNumbers, otherEncoded, -, otherWritten, same⟩ :=
      (decoded other _).mp otherText
    obtain rfl := dotted_inj same
    obtain rfl := encoded.numbers_unique otherEncoded
    rw [written.unpadded_iff.mp oneUnpadded, otherWritten.unpadded_iff.mp otherUnpadded]

theorem identifiers_read_back_without_padding :
    [0x2a, 0x86, 0x48] = [42, 840].flatMap mostFirstGroups ∧
      decode? false [0x2a, 0x80, 0x86, 0x48] = some "1.2.840" ∧
      decode? false [0x2a, 0x86] = none := by
  obtain ⟨decoded, refused, told⟩ := identifiers_read_back false
  have encoded : Encodes false [1, 2, 840] [42, 840] := .absolute (.inl ⟨by decide, by decide⟩)
  have root : Terminated [0x2a] := .last rfl
  have arc : Terminated [0x86, 0x48] := .more rfl (.last rfl)
  have paddedArc : Terminated [0x80, 0x86, 0x48] := .more rfl arc
  have unpadded : Unpadded [0x2a, 0x86, 0x48] := by
    intro groups inside
    rcases numberIn_append root inside with rfl | later
    · decide
    · rcases numberIn_append arc later with rfl | nothing
      · decide
      · exact absurd nothing not_numberIn_nil
  have written : Written [42, 840] [0x2a, 0x86, 0x48] :=
    .of_terminated root (.of_terminated arc .nil)
  have padded : Written [42, 840] [0x2a, 0x80, 0x86, 0x48] :=
    .of_terminated root (.of_terminated paddedArc .nil)
  have shown : ∀ body, Written [42, 840] body → decode? false body = some "1.2.840" :=
    fun body written => (decoded body _).mpr ⟨_, _, encoded, by decide, written, by decide +kernel⟩
  exact ⟨told _ _ _ unpadded (unpadded_flatMap _) (shown _ written) (shown _ (written_flatMap _)),
    shown _ padded, (refused _).mpr (.inr (.inl ⟨0x86, rfl, rfl⟩))⟩

end ByteListing.Der.ObjectIdentifier
