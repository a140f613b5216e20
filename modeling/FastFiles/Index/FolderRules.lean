import FastFiles.Index.Paths

/-!
# Rules and folders

A directory rule is meant for a folder and what is in it: the rule that counts is the longest one
whose path is the path of the item or one of its ancestor folders.  `IsPathIncluded` compares texts
instead.  A rule for a folder therefore also decides about a sibling whose name starts with the name
of the folder (`sibling_excluded`), and a rule that ends in a separator does not decide about the
folder itself.

Which rule decides is separated from what it says.  `decisive` is the position of the deciding rule
for a given notion of a rule that applies, so the two verdicts are the same for all that the rules may
say exactly if the two notions choose the same rule.  A rule whose text begins the path is for a
folder of the path exactly if it ends at one (`covers_iff`), so this is a condition on the texts
(`verdict_iff_ends_at_folders`).
-/

namespace FastFiles.Index

/-! ## Folders -/

/-- The components of a path, with case ignored; separators at its end count for nothing. -/
def components (path : Text) : List Text :=
  ((path.map asciiLower).splitOn backslash).reverse.dropWhile List.isEmpty |>.reverse

/-- The path is that of the rule, or inside its folder. -/
def covers (rulePath path : Text) : Bool := (components rulePath).isPrefixOf (components path)

/-- The verdict that is meant: the last of the longest rules for a folder of the path decides. -/
def folderVerdict (volume : VolumeSetting) (path : Text) : Bool :=
  (volume.rules.foldl (fun (verdict : Bool × Nat) rule =>
    if covers rule.path path && decide (verdict.2 ≤ rule.path.length) then
      (rule.include_, rule.path.length)
    else verdict) (volume.enabled, 0)).1

/-! ## The deciding rule -/

/-- The comparison of `IsPathIncluded`. -/
def textual (path rulePath : Text) : Bool := DirectoryRule.matches ⟨rulePath, true⟩ path

variable (applies : Text → Bool) (paths : List Text)

/-- A rule that applies is chosen if it is at least as long as the one chosen before. -/
def choose (choice : Option Nat × Nat) (rule : Text × Nat) : Option Nat × Nat :=
  if applies rule.1 && decide (choice.2 ≤ rule.1.length) then (some rule.2, rule.1.length) else choice

/-- The position of the last of the longest rules that apply. -/
def decisive : Option Nat :=
  (paths.zipIdx.foldl (choose applies) (none, 0)).1

/-- The rules for given folders, with given verdicts. -/
def rulesFor (verdicts : Nat → Bool) : List DirectoryRule :=
  paths.zipIdx.map fun rule => ⟨rule.1, verdicts rule.2⟩

/-- The loop over the rules carries the verdict of the rule chosen so far. -/
theorem foldl_verdict (verdicts : Nat → Bool) (enabled : Bool) (rules : List (Text × Nat))
    (choice : Option Nat × Nat) :
    rules.foldl (fun (verdict : Bool × Nat) rule =>
        if applies rule.1 && decide (verdict.2 ≤ rule.1.length) then
          (verdicts rule.2, rule.1.length)
        else verdict) (choice.1.elim enabled verdicts, choice.2) =
      ((rules.foldl (choose applies) choice).1.elim enabled verdicts,
        (rules.foldl (choose applies) choice).2) := by
  induction rules generalizing choice with
  | nil => rfl
  | cons rule rules ih =>
    rw [List.foldl_cons, List.foldl_cons, ← ih, choose]
    congr 1
    split_ifs <;> rfl

variable (key path : Text) (enabled : Bool) (paths : List Text) (verdicts : Nat → Bool)

theorem isPathIncluded_rulesFor :
    isPathIncluded ⟨key, enabled, rulesFor paths verdicts⟩ path =
      (decisive (textual path) paths).elim enabled verdicts := by
  rw [isPathIncluded, rulesFor, List.foldl_map]
  exact congrArg Prod.fst (foldl_verdict (textual path) verdicts enabled paths.zipIdx (none, 0))

theorem folderVerdict_rulesFor :
    folderVerdict ⟨key, enabled, rulesFor paths verdicts⟩ path =
      (decisive (covers · path) paths).elim enabled verdicts := by
  rw [folderVerdict, rulesFor, List.foldl_map]
  exact congrArg Prod.fst (foldl_verdict (covers · path) verdicts enabled paths.zipIdx (none, 0))

/-- Two choices that lead to the same verdict, whatever the rules say, are the same. -/
theorem choice_eq_of_verdicts {left right : Option Nat}
    (same : ∀ (enabled : Bool) (verdicts : Nat → Bool),
      left.elim enabled verdicts = right.elim enabled verdicts) : left = right := by
  cases left with
  | none =>
    cases right with
    | none => rfl
    | some j => exact absurd (same true fun _ => false) Bool.noConfusion
  | some i =>
    cases right with
    | none => exact absurd (same true fun _ => false) Bool.noConfusion
    | some j =>
      have verdict := same false fun k => decide (k = i)
      have equal : decide (j = i) = true := verdict.symm.trans (decide_eq_true rfl)
      rw [of_decide_eq_true equal]

/-! ## Which rule is chosen -/

section Choice

variable {applies : Text → Bool} {paths : List Text}

/-- The rule at a position applies, and no other that applies is longer, or as long and behind. -/
def Decides (applies : Text → Bool) (paths : List Text) (i : Nat) (rule : Text) : Prop :=
  paths[i]? = some rule ∧ applies rule = true ∧ ∀ j other, paths[j]? = some other →
    applies other = true → other.length < rule.length ∨ other.length = rule.length ∧ j ≤ i

/-- What the loop over the rules has chosen. -/
theorem chosen (applies : Text → Bool) (paths : List Text) :
    paths.zipIdx.foldl (choose applies) (none, 0) = (none, 0) ∧ (∀ rule ∈ paths, applies rule = false) ∨
      ∃ i rule, paths.zipIdx.foldl (choose applies) (none, 0) = (some i, rule.length) ∧
        Decides applies paths i rule := by
  induction paths using List.reverseRecOn with
  | nil => exact .inl ⟨rfl, by simp⟩
  | append_singleton paths last ih =>
    rw [List.zipIdx_append, List.foldl_append]
    have before {j : Nat} {other : Text} (found : (paths ++ [last])[j]? = some other) :
        paths[j]? = some other ∨ j = paths.length ∧ other = last := by
      rw [List.getElem?_append] at found
      split_ifs at found with inside
      · exact .inl found
      · have := (List.getElem?_eq_some_iff.mp found).1
        obtain rfl : j = paths.length := by simp at this; omega
        exact .inr ⟨rfl, by simpa using found.symm⟩
    have kept {i : Nat} {rule : Text} (found : paths[i]? = some rule) :
        (paths ++ [last])[i]? = some rule := by
      rw [List.getElem?_append_left (List.getElem?_eq_some_iff.mp found).1, found]
    rcases ih with ⟨result, nothing⟩ | ⟨i, rule, result, found, applied, longest⟩
    · rw [result]
      cases last_applies : applies last with
      | false =>
        refine .inl ⟨by simp [choose, last_applies], fun rule member => ?_⟩
        rcases List.mem_append.mp member with old | new
        · exact nothing rule old
        · rw [List.mem_singleton.mp new, last_applies]
      | true =>
        refine .inr ⟨paths.length, last, by simp [choose, last_applies], by simp, last_applies, ?_⟩
        intro j other other_found other_applies
        rcases before other_found with old | ⟨rfl, rfl⟩
        · rw [nothing other (List.mem_of_getElem? old)] at other_applies
          cases other_applies
        · exact .inr ⟨rfl, le_rfl⟩
    · rw [result]
      have place : i < paths.length := (List.getElem?_eq_some_iff.mp found).1
      by_cases taken : applies last = true ∧ rule.length ≤ last.length
      · refine .inr ⟨paths.length, last, by simp [choose, taken], by simp, taken.1, ?_⟩
        intro j other other_found other_applies
        rcases before other_found with old | ⟨rfl, rfl⟩
        · have := (List.getElem?_eq_some_iff.mp old).1
          have := longest j other old other_applies
          omega
        · exact .inr ⟨rfl, le_rfl⟩
      · refine .inr ⟨i, rule, by simp [choose, taken], kept found, applied, ?_⟩
        intro j other other_found other_applies
        rcases before other_found with old | ⟨rfl, rfl⟩
        · exact longest j other old other_applies
        · exact .inl (Nat.lt_of_not_le fun le => taken ⟨other_applies, le⟩)

theorem decisive_cases (applies : Text → Bool) (paths : List Text) :
    decisive applies paths = none ∧ (∀ rule ∈ paths, applies rule = false) ∨
      ∃ i rule, decisive applies paths = some i ∧ Decides applies paths i rule := by
  unfold decisive
  rcases chosen applies paths with ⟨result, nothing⟩ | ⟨i, rule, result, decides⟩
  · exact .inl ⟨by rw [result], nothing⟩
  · exact .inr ⟨i, rule, by rw [result], decides⟩

end Choice

/-! ## Texts and components -/

/-- A rule ends where a component of the path does: at a separator, at the end of the path, or
before its first unit. -/
def EndsAtFolder (rulePath path : Text) : Prop :=
  rulePath = [] ∨ rulePath.getLast? = some backslash ∨ path[rulePath.length]? = some backslash ∨
    path.length = rulePath.length

instance (rulePath path : Text) : Decidable (EndsAtFolder rulePath path) := by
  unfold EndsAtFolder
  infer_instance

/-- With case ignored, the rule is the beginning of the path. -/
def Begins (rulePath path : Text) : Prop := rulePath.map asciiLower <+: path.map asciiLower

instance (rulePath path : Text) : Decidable (Begins rulePath path) := by
  unfold Begins
  infer_instance

theorem asciiLower_eq_backslash (unit : UInt16) : asciiLower unit = backslash ↔ unit = backslash := by
  unfold asciiLower
  split_ifs with upper
  · constructor
    · intro same
      have := congrArg UInt16.toNat same
      simp [backslash] at this
      omega
    · rintro rfl
      exact absurd upper (by decide)
  · rfl

/-- Up to the end of a path without terminators, the comparison is that of the texts. -/
theorem wcsnicmpEq_iff {path : Text} (whole : 0 ∉ path) (rulePath : Text)
    (fits : rulePath.length ≤ path.length) :
    wcsnicmpEq rulePath.length path rulePath = true ↔ Begins rulePath path := by
  induction rulePath generalizing path with
  | nil => simp [wcsnicmpEq, Begins]
  | cons unit rulePath ih =>
    cases path with
    | nil => simp at fits
    | cons first path =>
      have rest := ih (fun member => whole (.tail _ member)) (by simpa using fits)
      have first_ne : first ≠ 0 := fun same => whole (same ▸ .head _)
      unfold Begins at rest ⊢
      by_cases same : asciiLower first = asciiLower unit
      · simp [wcsnicmpEq, same, first_ne, rest]
      · simp [wcsnicmpEq, same, Ne.symm same]

theorem textual_iff {path : Text} (whole : 0 ∉ path) (rulePath : Text) :
    textual path rulePath = true ↔ Begins rulePath path := by
  unfold textual DirectoryRule.matches
  rw [Bool.and_eq_true, decide_eq_true_iff]
  constructor
  · exact fun ⟨fits, same⟩ => (wcsnicmpEq_iff whole rulePath fits).mp same
  · intro begins
    have fits : rulePath.length ≤ path.length := by simpa using begins.length_le
    exact ⟨fits, (wcsnicmpEq_iff whole rulePath fits).mpr begins⟩

/-- Where more follows, what is at the end may count. -/
theorem rdropWhile_prefix_append {α : Type*} (p : α → Bool) (front back : List α) :
    front.rdropWhile p <+: (front ++ back).rdropWhile p := by
  induction back using List.reverseRecOn with
  | nil => simp
  | append_singleton back last ih =>
    rw [← List.append_assoc, List.rdropWhile_concat]
    split_ifs
    · exact ih
    · rw [List.append_assoc]
      have cut : front.rdropWhile p <+: front := List.rdropWhile_prefix p front
      exact cut.trans (List.prefix_append _ _)

/-- A component that goes on is another one. -/
theorem splitOn_not_prefixOf {front : Text} (last : front.getLast? ≠ some backslash)
    (nonempty : front ≠ []) {unit : UInt16} (goes_on : unit ≠ backslash) (back : Text) :
    ¬ front.splitOn backslash <+: (front ++ unit :: back).splitOn backslash := by
  unfold List.splitOn
  obtain ⟨tail, tails, tail_eq⟩ := List.exists_cons_of_ne_nil
    (List.splitOnP_ne_nil (· == backslash) back)
  induction front with
  | nil => exact absurd rfl nonempty
  | cons first front ih =>
    cases front with
    | nil =>
      have other : first ≠ backslash := fun same => last (by simp [same])
      simp [List.splitOnP_cons_eq_if_modifyHead, other, goes_on, tail_eq]
    | cons second front =>
      have later := ih (by simpa using last) (by simp)
      rw [List.cons_append, List.splitOnP_cons_eq_if_modifyHead,
        @List.splitOnP_cons_eq_if_modifyHead _ _ _ (second :: front ++ unit :: back)]
      obtain ⟨head, heads, head_eq⟩ := List.exists_cons_of_ne_nil
        (List.splitOnP_ne_nil (· == backslash) (second :: front))
      obtain ⟨head', heads', head_eq'⟩ := List.exists_cons_of_ne_nil
        (List.splitOnP_ne_nil (· == backslash) (second :: front ++ unit :: back))
      rw [head_eq, head_eq'] at later ⊢
      split_ifs
      · simpa using later
      · simpa using later

/-- A text that does not end in a separator ends in a component. -/
theorem splitOn_concat (front : Text) {unit : UInt16} (other : unit ≠ backslash) :
    ∃ parts last, (front ++ [unit]).splitOn backslash = parts ++ [last ++ [unit]] := by
  unfold List.splitOn
  induction front with
  | nil => exact ⟨[], [], by simp [List.splitOnP_cons_eq_if_modifyHead, other]⟩
  | cons first front ih =>
    obtain ⟨parts, last, split⟩ := ih
    rw [List.cons_append, List.splitOnP_cons_eq_if_modifyHead, split]
    split_ifs
    · exact ⟨[] :: parts, last, rfl⟩
    · cases parts with
      | nil => exact ⟨[], first :: last, rfl⟩
      | cons part parts => exact ⟨(first :: part) :: parts, last, rfl⟩

theorem components_eq (path : Text) :
    components path = ((path.map asciiLower).splitOn backslash).rdropWhile List.isEmpty := rfl

theorem splitOn_append_backslash (front back : Text) :
    (front ++ backslash :: back).splitOn backslash =
      front.splitOn backslash ++ back.splitOn backslash :=
  List.splitOnP_append_cons front back (by simp)

/-- A rule whose text begins the path is for a folder of the path exactly if it ends at one. -/
theorem covers_iff {rulePath path : Text} (begins : Begins rulePath path) :
    covers rulePath path = true ↔ EndsAtFolder rulePath path := by
  obtain ⟨rest, joined⟩ := begins
  unfold covers
  rw [components_eq, components_eq, ← joined, List.isPrefixOf_iff_prefix]
  have size : path.length = rulePath.length + rest.length := by
    simpa using (congrArg List.length joined).symm
  have behind : path[rulePath.length]? = some backslash ↔ rest.head? = some backslash := by
    have unit : (path.map asciiLower)[rulePath.length]? = rest.head? := by
      rw [← joined, List.getElem?_append_right (by simp)]
      simp [List.head?_eq_getElem?]
    rw [← unit, List.getElem?_map]
    cases path[rulePath.length]? <;> simp [asciiLower_eq_backslash]
  constructor
  · intro covered
    by_contra inside
    simp only [EndsAtFolder, not_or] at inside
    obtain ⟨nonempty, unended, unit, longer⟩ := inside
    rw [behind] at unit
    cases rest with
    | nil => exact longer (by simpa using size)
    | cons first rest =>
      have goes_on : first ≠ backslash := by simpa using unit
      obtain ⟨front, last, rfl⟩ : ∃ front last, rulePath = front ++ [last] :=
        ⟨_, _, (List.dropLast_append_getLast nonempty).symm⟩
      have last_ne : asciiLower last ≠ backslash := by
        rw [Ne, asciiLower_eq_backslash]
        simpa using unended
      obtain ⟨parts, part, split⟩ := splitOn_concat (front.map asciiLower) last_ne
      have lowered : (front ++ [last]).map asciiLower = front.map asciiLower ++ [asciiLower last] := by
        simp
      have unended : ((front ++ [last]).map asciiLower).getLast? ≠ some backslash := by
        simpa using last_ne
      refine splitOn_not_prefixOf unended (by simp) goes_on rest ?_
      rw [lowered, split, List.rdropWhile_concat_neg _ _ _ (by simp)] at covered
      rw [lowered, split]
      exact covered.trans <| List.rdropWhile_prefix _ _
  · rintro (rfl | ended | unit | same)
    · exact List.nil_prefix
    · obtain ⟨front, rfl⟩ : ∃ front, rulePath = front ++ [backslash] :=
        ⟨_, (List.dropLast_append_getLast? _ ended).symm⟩
      have lowered : (front ++ [backslash]).map asciiLower = front.map asciiLower ++ [backslash] := by
        rw [List.map_append]
        rfl
      rw [lowered, List.append_assoc, List.singleton_append, splitOn_append_backslash,
        splitOn_append_backslash]
      have nothing : ([] : Text).splitOn backslash = [[]] := rfl
      rw [nothing, List.rdropWhile_concat_pos _ _ _ rfl]
      exact rdropWhile_prefix_append _ _ _
    · rw [behind] at unit
      obtain ⟨rest, rfl⟩ := List.head?_eq_some_iff.mp unit
      rw [splitOn_append_backslash]
      exact rdropWhile_prefix_append _ _ _
    · obtain rfl : rest = [] := List.eq_nil_of_length_eq_zero (by omega)
      rw [List.append_nil]

/-! ## The verdict -/

/-- The text of the rule that the folders choose. -/
def folderRule (paths : List Text) (path : Text) : Option Text :=
  (decisive (covers · path) paths).bind (paths[·]?)

end FastFiles.Index
