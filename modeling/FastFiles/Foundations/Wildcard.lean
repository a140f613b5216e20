import Mathlib

/-!
# Matching with one backtrack point

A pattern of literals, single wildcards and stars, and the matcher that remembers the last star
only: on a mismatch it lets that star take one symbol more and tries again.

`Matches` is what a match is: the text is split so that a star takes any run of symbols.  That the
last star is enough is the invariant `Resumes`: between the star and the current place the pattern
has no star, so a later try of an earlier star would bring the matcher to the current place with
less text, and the star found there can take the difference.
-/

namespace FastFiles.Wildcard

universe u v

variable {Symbol : Type u} {Letter : Type v}

inductive Item (Letter : Type v) where
  | star
  | one
  | literal (letter : Letter)
deriving DecidableEq

namespace Item

def isStar : Item Letter → Bool
  | star => true
  | _ => false

end Item

/-- The text is split among the items: a star takes any run, every other item one symbol. -/
inductive Matches (same : Symbol → Letter → Bool) : List (Item Letter) → List Symbol → Prop
  | nil : Matches same [] []
  | star (run : List Symbol) {items text} :
      Matches same items text → Matches same (.star :: items) (run ++ text)
  | one (symbol : Symbol) {items text} :
      Matches same items text → Matches same (.one :: items) (symbol :: text)
  | literal {symbol : Symbol} {letter : Letter} {items text} (agree : same symbol letter = true) :
      Matches same items text → Matches same (.literal letter :: items) (symbol :: text)

/-- The matcher.  `back` is the pattern behind the last star and the text it was tried on. -/
def scan (same : Symbol → Letter → Bool) :
    List Symbol → List (Item Letter) → Option (List (Item Letter) × List Symbol) → Bool
  | [], items, _ => items.all Item.isStar
  | text, .star :: items, _ => scan same text items (some (items, text))
  | _ :: text, .one :: items, back => scan same text items back
  | symbol :: text, .literal letter :: items, back =>
    if same symbol letter then scan same text items back
    else match back with
      | none => false
      | some (items', text') => scan same text'.tail items' (some (items', text'.tail))
  | _ :: _, [], back =>
    match back with
    | none => false
    | some (items', text') => scan same text'.tail items' (some (items', text'.tail))
termination_by text items back => (max text.length (back.elim 0 (·.2.length)), items.length)
decreasing_by
  all_goals simp only [Option.elim_some, List.length_tail, List.length_cons]
  iterate 3 apply Prod.Lex.right' <;> omega
  iterate 2 exact Prod.Lex.left _ _ (by omega)

variable {same : Symbol → Letter → Bool}

variable {symbol : Symbol}

theorem scan_literal {letter : Letter} (agree : same symbol letter = true)
    (text : List Symbol) (items : List (Item Letter))
    (back : Option (List (Item Letter) × List Symbol)) :
    scan same (symbol :: text) (.literal letter :: items) back = scan same text items back := by
  cases back <;> rw [scan, if_pos agree]

/-! ## Matches -/

namespace Matches

theorem nil_left {text : List Symbol} (matched : Matches same [] text) : text = [] := by
  cases matched
  rfl

/-- Only stars match the empty text. -/
theorem nil_right_iff {items : List (Item Letter)} :
    Matches same items [] ↔ items.all Item.isStar = true := by
  induction items with
  | nil => exact iff_of_true .nil rfl
  | cons item items ih =>
    rw [List.all_cons, Bool.and_eq_true, ← ih]
    constructor
    · intro matched
      generalize empty : ([] : List Symbol) = text at matched
      cases matched with
      | star run rest =>
        obtain ⟨rfl, rfl⟩ := List.append_eq_nil_iff.mp empty.symm
        exact ⟨rfl, rest⟩
      | _ => cases empty
    · rintro ⟨star, rest⟩
      cases item with
      | star => exact .star [] rest
      | _ => cases star

variable {items : List (Item Letter)} {text : List Symbol}

theorem star_iff :
    Matches same (.star :: items) text ↔ ∃ taken, Matches same items (text.drop taken) := by
  constructor
  · intro matched
    cases matched with
    | @star run _ rest matched => exact ⟨run.length, by rwa [List.drop_left]⟩
  · rintro ⟨taken, matched⟩
    rw [← List.take_append_drop taken text]
    exact .star _ matched

theorem one_iff : Matches same (.one :: items) (symbol :: text) ↔ Matches same items text :=
  ⟨fun | .one _ matched => matched, .one symbol⟩

theorem literal_iff {letter : Letter} :
    Matches same (.literal letter :: items) (symbol :: text) ↔
      same symbol letter = true ∧ Matches same items text :=
  ⟨fun | .literal agree matched => ⟨agree, matched⟩, fun ⟨agree, matched⟩ => .literal agree matched⟩

/-- Items without a star take one symbol each. -/
theorem drop_of_starless {front : List (Item Letter)}
    (starless : ∀ item ∈ front, item.isStar = false) (matched : Matches same (front ++ items) text) :
    Matches same items (text.drop front.length) := by
  induction front generalizing text with
  | nil => exact matched
  | cons item front ih =>
    have rest := fun other member => starless other (.tail item member)
    cases matched with
    | star => exact absurd (starless .star (.head _)) Bool.noConfusion
    | one symbol matched => exact ih rest matched
    | literal agree matched => exact ih rest matched

end Matches

/-! ## The matcher -/

/-- The current place is reached from the last star by items without a star. -/
def Resumes (text : List Symbol) (items : List (Item Letter)) :
    Option (List (Item Letter) × List Symbol) → Prop
  | none => True
  | some (items', text') => ∃ front : List (Item Letter),
      items' = front ++ items ∧ (∀ item ∈ front, item.isStar = false) ∧ text = text'.drop front.length

/-- A later try of the last star succeeds. -/
def Retries (same : Symbol → Letter → Bool) :
    Option (List (Item Letter) × List Symbol) → Prop
  | none => False
  | some (items', text') => ∃ taken, Matches same items' (text'.tail.drop taken)

variable {back : Option (List (Item Letter) × List Symbol)} {items : List (Item Letter)}
  {text : List Symbol}

/-- A star at the current place makes the earlier star superfluous. -/
theorem Resumes.star (resumes : Resumes text (.star :: items) back)
    (retries : Retries same back) : Matches same (.star :: items) text := by
  match back with
  | none => exact retries.elim
  | some (items', text') =>
    obtain ⟨front, rfl, starless, rfl⟩ := resumes
    obtain ⟨taken, matched⟩ := retries
    obtain ⟨more, rest⟩ := Matches.star_iff.mp (matched.drop_of_starless starless)
    refine Matches.star_iff.mpr ⟨taken + 1 + more, ?_⟩
    have places : (text'.drop front.length).drop (taken + 1 + more) =
        ((text'.tail.drop taken).drop front.length).drop more := by
      rw [List.drop_drop, List.drop_drop, List.drop_drop, List.drop_tail]
      congr 1
      omega
    rwa [places]

/-- One item further, with one symbol less. -/
theorem Resumes.next {item : Item Letter}
    (resumes : Resumes (symbol :: text) (item :: items) back) (starless : item.isStar = false) :
    Resumes text items back := by
  match back with
  | none => trivial
  | some (items', text') =>
    obtain ⟨front, rfl, before, place⟩ := resumes
    refine ⟨front ++ [item], by rw [List.append_assoc]; rfl, ?_, ?_⟩
    · intro other member
      rcases List.mem_append.mp member with old | new
      · exact before other old
      · rw [List.mem_singleton.mp new]
        exact starless
    · rw [List.length_append, List.length_singleton, ← List.drop_drop, ← place]
      rfl

/-- The place where a try of a star starts. -/
theorem Resumes.again (items : List (Item Letter)) (text : List Symbol) :
    Resumes text items (some (items, text)) :=
  ⟨[], rfl, fun _ member => absurd member List.not_mem_nil, rfl⟩

/-- A star is tried on all that is left of its text. -/
theorem matches_or_retries :
    Matches same items text ∨ Retries same (some (items, text)) ↔
      ∃ taken, Matches same items (text.drop taken) := by
  constructor
  · rintro (now | ⟨taken, later⟩)
    · exact ⟨0, now⟩
    · exact ⟨taken + 1, by rwa [List.drop_tail] at later⟩
  · rintro ⟨taken, matched⟩
    cases taken with
    | zero => exact .inl matched
    | succ taken => exact .inr ⟨taken, by rwa [List.drop_tail]⟩

/-- At the end of the text a later try would have too little of it. -/
theorem Resumes.nil
    (resumes : Resumes [] items back) (retries : Retries same back) : Matches same items [] := by
  match back with
  | none => exact retries.elim
  | some (items', text') =>
    obtain ⟨front, rfl, starless, place⟩ := resumes
    obtain ⟨taken, matched⟩ := retries
    have rest := matched.drop_of_starless starless
    have nothing : (text'.tail.drop taken).drop front.length = [] := by
      rw [eq_comm, List.drop_eq_nil_iff] at place
      rw [List.drop_eq_nil_iff]
      simp only [List.length_drop, List.length_tail]
      omega
    rwa [nothing] at rest

/-- **The last star is enough.** -/
theorem scan_iff (resumes : Resumes text items back) :
    scan same text items back = true ↔ Matches same items text ∨ Retries same back := by
  fun_induction scan same text items back with
  | case1 items back =>
    have ends : Matches same items [] ↔ items.all Item.isStar = true := Matches.nil_right_iff
    rw [← ends]
    exact ⟨.inl, fun found => found.elim id (Resumes.nil resumes)⟩
  | case2 text items back nonempty ih =>
    rw [ih (Resumes.again items text), matches_or_retries, ← Matches.star_iff]
    exact ⟨.inl, fun found => found.elim id (Resumes.star resumes)⟩
  | case3 symbol text items back ih =>
    rw [ih (Resumes.next resumes rfl), Matches.one_iff]
  | case4 symbol text letter items back agree ih =>
    rw [ih (Resumes.next resumes rfl), Matches.literal_iff, and_iff_right agree]
  | case5 symbol text letter items differs =>
    refine iff_of_false Bool.false_ne_true (not_or_intro ?_ id)
    exact fun matched => differs (Matches.literal_iff.mp matched).1
  | case6 symbol text letter items differs items' text' ih =>
    rw [ih (Resumes.again items' text'.tail), matches_or_retries, or_iff_right]
    · rfl
    · exact fun matched => differs (Matches.literal_iff.mp matched).1
  | case7 symbol text =>
    refine iff_of_false Bool.false_ne_true (not_or_intro ?_ id)
    exact fun matched => List.cons_ne_nil symbol text matched.nil_left
  | case8 symbol text items' text' ih =>
    rw [ih (Resumes.again items' text'.tail), matches_or_retries, or_iff_right]
    · rfl
    · exact fun matched => List.cons_ne_nil symbol text matched.nil_left

/-- The matcher, started without a star to fall back on, decides whether the text matches. -/
theorem scan_none_iff :
    scan same text items none = true ↔ Matches same items text := by
  have resumes : Resumes text items none := trivial
  exact (scan_iff resumes).trans (or_iff_left id)

end FastFiles.Wildcard
