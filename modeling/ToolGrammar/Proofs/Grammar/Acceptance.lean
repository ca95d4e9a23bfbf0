import Mathlib
import ToolGrammar.Grammar.Assembly

/-!
What a successful assembly has established. The rules that it keeps are the first of each name, the
names that it reports are those of the others, no rule has a reserved name, and any two rules of one
name read alike.
-/
namespace ToolGrammar.Grammar

open Schema (FunctionSpec)

section

variable {α : Type} (name : α → RuleId)

/-- The items whose names neither are `seen` nor belong to an earlier item. -/
def firsts (seen : List RuleId) : List α → List α
  | [] => []
  | item :: rest =>
      if name item ∈ seen then firsts seen rest else item :: firsts (name item :: seen) rest

/-- The items whose names are `seen` or belong to an earlier item. -/
def repeats (seen : List RuleId) : List α → List α
  | [] => []
  | item :: rest =>
      if name item ∈ seen then item :: repeats seen rest else repeats (name item :: seen) rest

variable {name} {seen : List RuleId} {items : List α} {item : α}

theorem mem_of_mem_firsts (kept : item ∈ firsts name seen items) :
    item ∈ items ∧ name item ∉ seen := by
  induction items generalizing seen with
  | nil => cases kept
  | cons first rest ih =>
      rw [firsts] at kept
      split at kept
      · obtain ⟨member, unseen⟩ := ih kept
        exact ⟨List.mem_cons_of_mem first member, unseen⟩
      · rename_i unseen
        rcases List.mem_cons.mp kept with rfl | later
        · exact ⟨List.mem_cons_self, unseen⟩
        · obtain ⟨member, fresh⟩ := ih later
          exact ⟨List.mem_cons_of_mem first member, fun earlier => fresh (by simp [earlier])⟩

theorem mem_of_mem_repeats (repeated : item ∈ repeats name seen items) : item ∈ items := by
  induction items generalizing seen with
  | nil => cases repeated
  | cons first rest ih =>
      rw [repeats] at repeated
      split at repeated
      · rcases List.mem_cons.mp repeated with rfl | later
        · exact List.mem_cons_self
        · exact List.mem_cons_of_mem first (ih later)
      · exact List.mem_cons_of_mem first (ih repeated)

theorem nodup_firsts (seen : List RuleId) (items : List α) :
    ((firsts name seen items).map name).Nodup := by
  induction items generalizing seen with
  | nil => exact List.nodup_nil
  | cons first rest ih =>
      rw [firsts]
      split
      · exact ih seen
      · refine List.nodup_cons.mpr ⟨fun repeated => ?_, ih _⟩
        obtain ⟨item, kept, same⟩ := List.mem_map.mp repeated
        exact (mem_of_mem_firsts kept).2 (by simp [same])

/-- Every name that is not seen is that of a first item. -/
theorem exists_mem_firsts (member : item ∈ items) (unseen : name item ∉ seen) :
    ∃ kept ∈ firsts name seen items, name kept = name item := by
  induction items generalizing seen with
  | nil => cases member
  | cons first rest ih =>
      by_cases same : name item = name first
      · refine ⟨first, ?_, same.symm⟩
        rw [firsts, if_neg (same ▸ unseen)]
        exact List.mem_cons_self
      · have later : item ∈ rest := by
          rcases List.mem_cons.mp member with rfl | later
          · exact absurd rfl same
          · exact later
        rw [firsts]
        split
        · exact ih later unseen
        · have unseenNow : name item ∉ name first :: seen := by simp [same, unseen]
          obtain ⟨kept, found, named⟩ := ih later unseenNow
          exact ⟨kept, List.mem_cons_of_mem first found, named⟩

theorem firsts_map {β : Type} (make : β → α) (seen : List RuleId) (sources : List β) :
    firsts name seen (sources.map make) =
      (firsts (fun source => name (make source)) seen sources).map make := by
  induction sources generalizing seen with
  | nil => rfl
  | cons first rest ih =>
      simp only [List.map_cons, firsts, ih]
      split <;> rfl

theorem repeats_map {β : Type} (make : β → α) (seen : List RuleId) (sources : List β) :
    repeats name seen (sources.map make) =
      (repeats (fun source => name (make source)) seen sources).map make := by
  induction sources generalizing seen with
  | nil => rfl
  | cons first rest ih =>
      simp only [List.map_cons, repeats, ih]
      split <;> rfl

/-- Only those seen names matter that the items have. -/
theorem firsts_congr {others : List RuleId}
    (same : ∀ item ∈ items, name item ∈ seen ↔ name item ∈ others) :
    firsts name seen items = firsts name others items ∧
      repeats name seen items = repeats name others items := by
  induction items generalizing seen others with
  | nil => exact ⟨rfl, rfl⟩
  | cons first rest ih =>
      have here := same first List.mem_cons_self
      have later : ∀ item ∈ rest, name item ∈ seen ↔ name item ∈ others :=
        fun item member => same item (List.mem_cons_of_mem first member)
      simp only [firsts, repeats, here]
      split
      · simp [ih later]
      · have extended : ∀ item ∈ rest,
            name item ∈ name first :: seen ↔ name item ∈ name first :: others := by
          intro item member
          rw [List.mem_cons, List.mem_cons, later item member]
        simp [ih extended]

/-- Items of distinct and new names are kept and do not make others repetitions. -/
theorem firsts_append_of_fresh (seen : List RuleId) {front back : List α}
    (distinct : (front.map name).Nodup) (unseen : ∀ item ∈ front, name item ∉ seen)
    (apart : ∀ item ∈ front, ∀ other ∈ back, name item ≠ name other) :
    firsts name seen (front ++ back) = front ++ firsts name seen back ∧
      repeats name seen (front ++ back) = repeats name seen back := by
  induction front generalizing seen with
  | nil => exact ⟨rfl, rfl⟩
  | cons first rest ih =>
      obtain ⟨different, distinct⟩ := List.nodup_cons.mp distinct
      have unseenRest : ∀ item ∈ rest, name item ∉ name first :: seen := by
        intro item member
        have other : name item ≠ name first :=
          fun same => different (same ▸ List.mem_map_of_mem member)
        simpa [other] using unseen item (List.mem_cons_of_mem first member)
      obtain ⟨kept, dropped⟩ := ih (name first :: seen) distinct unseenRest
        fun item member => apart item (List.mem_cons_of_mem first member)
      have drop : ∀ other ∈ back, name other ∈ name first :: seen ↔ name other ∈ seen := by
        intro other member
        have different := (apart first List.mem_cons_self other member).symm
        simp [different]
      rw [List.cons_append, firsts, repeats, if_neg (unseen first List.mem_cons_self),
        if_neg (unseen first List.mem_cons_self), kept, dropped, (firsts_congr drop).1,
        (firsts_congr drop).2]
      exact ⟨rfl, rfl⟩

theorem firsts_of_nodup (distinct : (items.map name).Nodup)
    (unseen : ∀ item ∈ items, name item ∉ seen) :
    firsts name seen items = items ∧ repeats name seen items = [] := by
  have apart : ∀ item ∈ items, ∀ other ∈ ([] : List α), name item ≠ name other := by simp
  simpa [firsts, repeats] using firsts_append_of_fresh seen distinct unseen apart

/-- New items of distinct names at the end are kept. -/
theorem firsts_append_fresh (seen : List RuleId) {front back : List α}
    (distinct : (back.map name).Nodup) (unseen : ∀ item ∈ back, name item ∉ seen)
    (apart : ∀ item ∈ front, ∀ other ∈ back, name item ≠ name other) :
    firsts name seen (front ++ back) = firsts name seen front ++ back ∧
      repeats name seen (front ++ back) = repeats name seen front := by
  induction front generalizing seen with
  | nil => exact firsts_of_nodup distinct unseen
  | cons first rest ih =>
      have apartRest : ∀ item ∈ rest, ∀ other ∈ back, name item ≠ name other :=
        fun item member => apart item (List.mem_cons_of_mem first member)
      rw [List.cons_append, firsts, firsts, repeats, repeats]
      split
      · obtain ⟨kept, dropped⟩ := ih seen unseen apartRest
        rw [kept, dropped]
        exact ⟨rfl, rfl⟩
      · have unseenNow : ∀ item ∈ back, name item ∉ name first :: seen := by
          intro item member
          have other := (apart first List.mem_cons_self item member).symm
          simpa [other] using unseen item member
        obtain ⟨kept, dropped⟩ := ih (name first :: seen) unseenNow apartRest
        rw [kept, dropped]
        exact ⟨rfl, rfl⟩

end

/-- Rules of one name read alike. -/
def Agree (rules : List Rule) : Prop :=
  ∀ left ∈ rules, ∀ right ∈ rules, left.id = right.id → left.body.render = right.body.render

theorem Agree.of_nodup {rules : List Rule} (distinct : (rules.map (·.id)).Nodup) : Agree rules := by
  intro left leftMember right rightMember same
  rw [List.inj_on_of_nodup_map distinct leftMember rightMember same]

theorem Agree.mono {rules others : List Rule} (agree : Agree rules) (within : others ⊆ rules) :
    Agree others :=
  fun left leftMember right rightMember =>
    agree left (within leftMember) right (within rightMember)

/-- Rules that can be accepted one after another. -/
structure Sound (rules : List Rule) : Prop where
  unreserved : ∀ rule ∈ rules, rule.id ∉ reservedIds
  agree : Agree rules

/-- The failure of a rule after rules that could be accepted: its name is reserved, or the earliest
rule of its name reads differently. -/
inductive Refuses (before : List Rule) (rule : Rule) : CompileError → Prop where
  | reserved (reserved : rule.id ∈ reservedIds) : Refuses before rule (.reservedRule rule.id)
  | collision {first : Rule} (unreserved : rule.id ∉ reservedIds)
      (earliest : before.find? (·.id == rule.id) = some first)
      (differs : first.body.render ≠ rule.body.render) :
      Refuses before rule (.ruleCollision rule.id first.body rule.body)

theorem Sound.snoc {rules : List Rule} {rule : Rule} (sound : Sound rules)
    (unreserved : rule.id ∉ reservedIds)
    (alike : ∀ other ∈ rules, other.id = rule.id → other.body.render = rule.body.render) :
    Sound (rules ++ [rule]) := by
  constructor
  · intro other member
    rcases List.mem_append.mp member with earlier | last
    · exact sound.unreserved other earlier
    · rw [List.mem_singleton.mp last]
      exact unreserved
  · intro left leftMember right rightMember same
    rcases List.mem_append.mp leftMember with leftEarlier | leftLast <;>
      rcases List.mem_append.mp rightMember with rightEarlier | rightLast
    · exact sound.agree left leftEarlier right rightEarlier same
    · obtain rfl := List.mem_singleton.mp rightLast
      exact alike left leftEarlier same
    · obtain rfl := List.mem_singleton.mp leftLast
      exact (alike right rightEarlier same.symm).symm
    · rw [List.mem_singleton.mp leftLast, List.mem_singleton.mp rightLast]

/-- All rules can be accepted, or some rule is the first that cannot. -/
theorem sound_or_refused (rules : List Rule) :
    Sound rules ∨ ∃ before rule after failure,
      rules = before ++ rule :: after ∧ Sound before ∧ Refuses before rule failure := by
  induction rules using List.reverseRecOn with
  | nil => exact .inl ⟨by simp, by simp [Agree]⟩
  | append_singleton rules rule ih =>
      rcases ih with sound | ⟨before, refused, after, failure, rfl, sound, refuses⟩
      · by_cases reserved : rule.id ∈ reservedIds
        · exact .inr ⟨rules, rule, [], _, rfl, sound, .reserved reserved⟩
        · cases found : rules.find? (·.id == rule.id) with
          | none =>
              have fresh : ∀ other ∈ rules, other.id ≠ rule.id := by
                simpa [List.find?_eq_none] using found
              exact .inl (sound.snoc reserved fun other member same =>
                absurd same (fresh other member))
          | some first =>
              have named : first.id = rule.id := by simpa using List.find?_some found
              have member : first ∈ rules := List.mem_of_find?_eq_some found
              by_cases same : first.body.render = rule.body.render
              · refine .inl (sound.snoc reserved fun other inside sameId => ?_)
                rw [← same]
                exact sound.agree other inside first member (sameId.trans named.symm)
              · exact .inr ⟨rules, rule, [], _, rfl, sound, .collision reserved found same⟩
      · exact .inr ⟨before, refused, after ++ [rule], failure, by simp, sound, refuses⟩

/-- An acceptance that goes on where some rules have been dropped and others kept. -/
def Acceptance.after (later : Acceptance (List Rule)) (dropped : List RuleId) (kept : List Rule) :
    Acceptance (List Rule) :=
  ⟨dropped ++ later.dropped, later.outcome.map (kept ++ ·)⟩

theorem Acceptance.after_nil (later : Acceptance (List Rule)) : later.after [] [] = later := by
  obtain ⟨dropped, outcome⟩ := later
  cases outcome <;> simp [after, Except.map]

theorem Acceptance.after_after (later : Acceptance (List Rule)) (dropped others : List RuleId)
    (kept rules : List Rule) :
    (later.after dropped kept).after others rules =
      later.after (others ++ dropped) (rules ++ kept) := by
  obtain ⟨last, outcome⟩ := later
  cases outcome <;> simp [after, Except.map]

section

variable {known rest : List Rule} {rule : Rule}

theorem acceptRules_keep (unreserved : rule.id ∉ reservedIds)
    (fresh : rule.id ∉ known.map (·.id)) :
    acceptRules known (rule :: rest) = (acceptRules (rule :: known) rest).after [] [rule] := by
  have unknown : known.find? (·.id == rule.id) = none := by
    simpa [List.find?_eq_none] using fresh
  simp [acceptRules, unreserved, unknown, Acceptance.after]

theorem acceptRules_drop {first : Rule} (unreserved : rule.id ∉ reservedIds)
    (found : known.find? (·.id == rule.id) = some first)
    (same : first.body.render = rule.body.render) :
    acceptRules known (rule :: rest) = (acceptRules known rest).after [rule.id] [] := by
  simp only [acceptRules, unreserved, found, same, if_true, if_false]
  cases later : (acceptRules known rest).outcome <;> simp [Acceptance.after, Except.map, later]

theorem acceptRules_refuse {failure : CompileError} (refuses : Refuses known rule failure) :
    acceptRules known (rule :: rest) = ⟨[], .error failure⟩ := by
  cases refuses with
  | reserved reserved => simp [acceptRules, reserved]
  | collision unreserved earliest differs => simp [acceptRules, unreserved, earliest, differs]

end

theorem find?_of_nodup {known : List Rule} {rule first : Rule} (distinct : (known.map (·.id)).Nodup)
    (member : first ∈ known) (named : first.id = rule.id) :
    known.find? (·.id == rule.id) = some first := by
  cases found : known.find? (·.id == rule.id) with
  | none => exact absurd named (by simpa using List.find?_eq_none.mp found first member)
  | some other =>
      have sameName : other.id = rule.id := by simpa using List.find?_some found
      rw [List.inj_on_of_nodup_map distinct (List.mem_of_find?_eq_some found) member
        (sameName.trans named.symm)]

/-- Rules that can be accepted leave behind the first of each name, the latest at the front. -/
theorem acceptRules_append {known front : List Rule} (back : List Rule)
    (distinct : (known.map (·.id)).Nodup) (unreserved : ∀ rule ∈ front, rule.id ∉ reservedIds)
    (agree : Agree (known ++ front)) :
    acceptRules known (front ++ back) =
      (acceptRules ((firsts Rule.id (known.map (·.id)) front).reverse ++ known) back).after
        ((repeats Rule.id (known.map (·.id)) front).map (·.id))
        (firsts Rule.id (known.map (·.id)) front) := by
  -- A rule that repeats one of those known leaves them as they are, and any other joins them.
  induction front generalizing known with
  | nil => exact (Acceptance.after_nil _).symm
  | cons rule rest ih =>
      obtain ⟨ruleUnreserved, unreserved⟩ := List.forall_mem_cons.mp unreserved
      by_cases seen : rule.id ∈ known.map (·.id)
      · obtain ⟨first, member, named⟩ := List.mem_map.mp seen
        have same : first.body.render = rule.body.render :=
          agree first (by simp [member]) rule (by simp) named
        have agreeRest : Agree (known ++ rest) :=
          agree.mono ((List.Sublist.refl known).append (List.sublist_cons_self rule rest)).subset
        rw [List.cons_append, acceptRules_drop ruleUnreserved (find?_of_nodup distinct member named)
          same, ih distinct unreserved agreeRest, firsts, repeats, if_pos seen, if_pos seen,
          Acceptance.after_after]
        rfl
      · have distinctNow : ((rule :: known).map (·.id)).Nodup :=
          List.nodup_cons.mpr ⟨seen, distinct⟩
        have agreeNow : Agree (rule :: known ++ rest) := agree.mono List.perm_middle.symm.subset
        rw [List.cons_append, acceptRules_keep ruleUnreserved seen,
          ih distinctNow unreserved agreeNow, firsts, repeats, if_neg seen, if_neg seen,
          Acceptance.after_after, List.reverse_cons, List.append_assoc]
        rfl

theorem acceptRules_of_sound {rules : List Rule} (sound : Sound rules) :
    acceptRules [] rules =
      ⟨(repeats Rule.id [] rules).map (·.id), .ok (firsts Rule.id [] rules)⟩ := by
  have distinct : (([] : List Rule).map (·.id)).Nodup := List.nodup_nil
  have whole := acceptRules_append [] distinct sound.unreserved sound.agree
  rw [List.append_nil] at whole
  rw [whole]
  simp [acceptRules, Acceptance.after, Except.map]

theorem mem_firsts_of_find? {seen : List RuleId} {rules : List Rule} {id : RuleId} {first : Rule}
    (earliest : rules.find? (·.id == id) = some first) (unseen : id ∉ seen) :
    first ∈ firsts Rule.id seen rules := by
  induction rules generalizing seen with
  | nil => cases earliest
  | cons rule rest ih =>
      rw [List.find?_cons] at earliest
      by_cases named : rule.id = id
      · simp only [named, beq_self_eq_true, Option.some.injEq] at earliest
        rw [firsts, if_neg (named ▸ unseen), earliest]
        exact List.mem_cons_self
      · have other : (rule.id == id) = false := by simpa using named
        rw [other] at earliest
        rw [firsts]
        split
        · exact ih earliest unseen
        · exact List.mem_cons_of_mem rule (ih earliest (by simp [unseen, Ne.symm named]))

theorem Refuses.toFirsts {before : List Rule} {rule : Rule} {failure : CompileError}
    (refuses : Refuses before rule failure) :
    Refuses (firsts Rule.id [] before).reverse rule failure := by
  cases refuses with
  | reserved reserved => exact .reserved reserved
  | @collision first unreserved earliest differs =>
      have kept := mem_firsts_of_find? earliest List.not_mem_nil
      have named : first.id = rule.id := by simpa using List.find?_some earliest
      have distinct : ((firsts Rule.id [] before).reverse.map (·.id)).Nodup := by
        rw [List.map_reverse, List.nodup_reverse]
        exact nodup_firsts [] before
      exact .collision unreserved (find?_of_nodup distinct (by simpa using kept) named) differs

theorem acceptRules_of_refuses {before : List Rule} {rule : Rule} {failure : CompileError}
    (after : List Rule) (sound : Sound before) (refuses : Refuses before rule failure) :
    acceptRules [] (before ++ rule :: after) =
      ⟨(repeats Rule.id [] before).map (·.id), .error failure⟩ := by
  have distinct : (([] : List Rule).map (·.id)).Nodup := List.nodup_nil
  have whole := acceptRules_append (rule :: after) distinct sound.unreserved sound.agree
  rw [List.map_nil, List.append_nil, acceptRules_refuse refuses.toFirsts] at whole
  rw [whole]
  simp [Acceptance.after, Except.map]

/-- What is known of functions whose grammar has been compiled. -/
structure Compiled (functions : List FunctionSpec) (grammar : Grammar) : Prop where
  nonempty : functions ≠ []
  names : (functions.map (·.name)).Nodup
  rules : grammar.rules = rootRule functions :: firsts Rule.id [] (emittedRules functions)
  dropped : (assemble functions).dropped = (repeats Rule.id [] (emittedRules functions)).map (·.id)
  unreserved : ∀ rule ∈ emittedRules functions, rule.id ∉ reservedIds
  agree : Agree (emittedRules functions)

theorem compiled_of_compile {functions : List FunctionSpec} {grammar : Grammar}
    (success : compile functions = .ok grammar) : Compiled functions grammar := by
  unfold compile at success
  unfold assemble at success
  split at success
  · cases success
  rename_i nonempty
  split at success
  · cases success
  rename_i unrepeated
  rcases sound_or_refused (emittedRules functions) with sound |
    ⟨before, rule, after, failure, emitted, sound, refuses⟩
  · have accepted := acceptRules_of_sound sound
    simp only [accepted, Except.map, Except.ok.injEq] at success
    refine ⟨by simpa using nonempty, (Schema.nodup_of_firstRepeat?_eq_none unrepeated).1, ?_, ?_,
      sound.unreserved, sound.agree⟩
    · rw [← success]
    · rw [assemble, if_neg nonempty, unrepeated]
      simp only [accepted]
  · rw [emitted] at success
    simp [acceptRules_of_refuses after sound refuses, Except.map] at success

end ToolGrammar.Grammar
