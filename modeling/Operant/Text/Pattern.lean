import Mathlib.Data.List.Basic
import Mathlib.Tactic

/-! Regular expressions, as a backtracking matcher executes them.

A pattern is run from a place in a text, and what is to follow is handed on: the first way
to match after which the rest succeeds is the one taken. Repetitions are of single
characters, greedy or lazy; groups are remembered, and can be asked for again. -/
namespace Operant.Text

inductive Pattern where
  | char (p : Char → Bool)
  /-- At least `least` characters, and at most `most`. -/
  | many (p : Char → Bool) (least : Nat) (most : Option Nat) (greedy : Bool)
  | seq (a b : Pattern)
  | alt (a b : Pattern)
  | group (name : Nat) (a : Pattern)
  /-- What the group has matched. -/
  | again (name : Nat)
  /-- Between a word character and one that is none. -/
  | boundary (isWord : Char → Bool)

/-- A place in a text, and the groups so far. -/
structure Place where
  before : Option Char
  rest : List Char
  groups : List (Nat × List Char) := []

namespace Place

def skip (s : Place) (n : Nat) : Place :=
  { s with before := ((s.rest.take n).getLast?).or s.before, rest := s.rest.drop n }

@[simp] theorem skip_length (s : Place) (n : Nat) : (s.skip n).rest.length = s.rest.length - n :=
  List.length_drop

def group (s : Place) (name : Nat) : List Char := (s.groups.lookup name).getD []

end Place

namespace Pattern

/-- The most characters a repetition may take. -/
def longest (p : Char → Bool) (most : Option Nat) (text : List Char) : Nat :=
  match most with
  | none => (text.takeWhile p).length
  | some n => min n (text.takeWhile p).length

/-- The numbers of characters a repetition may take, in the order they are tried. -/
def counts (p : Char → Bool) (least : Nat) (most : Option Nat) (greedy : Bool) (text : List Char) :
    List Nat :=
  let all := List.range' least (longest p most text + 1 - least)
  if greedy then all.reverse else all

def run : Pattern → Place → (Place → Option Place) → Option Place
  | .char p, s, k => match s.rest with
    | [] => none
    | c :: _ => if p c then k (s.skip 1) else none
  | .many p least most greedy, s, k =>
    (counts p least most greedy s.rest).findSome? fun n => k (s.skip n)
  | .seq a b, s, k => a.run s fun s' => b.run s' k
  | .alt a b, s, k => (a.run s k).or (b.run s k)
  | .group name a, s, k => a.run s fun s' =>
    k { s' with groups := (name, s.rest.take (s.rest.length - s'.rest.length)) :: s'.groups }
  | .again name, s, k =>
    if s.group name <+: s.rest then k (s.skip (s.group name).length) else none
  | .boundary isWord, s, k =>
    if s.before.any isWord ≠ s.rest.head?.any isWord then k s else none

/-- One after the other. -/
def all : List Pattern → Pattern
  | [] => .many (fun _ => false) 0 none true
  | [a] => a
  | a :: b :: rest => .seq a (all (b :: rest))

/-- One of them, the first that does. -/
def any (a : Pattern) : List Pattern → Pattern
  | [] => a
  | b :: rest => .alt a (any b rest)

/-- A text, character by character, each compared by `same`. -/
def text (same : Char → Char → Bool) (s : String) : Pattern := all (s.toList.map fun c => .char (same c))

/-- `re.sub`, for patterns that match no empty text: the matches are replaced from left to right.
`n` is more than the length of the text. -/
def subFrom (a : Pattern) (replacement : Place → List Char) : Nat → Option Char → List Char → List Char
  | 0, _, rest => rest
  | _ + 1, _, [] => []
  | n + 1, before, c :: rest => match a.run ⟨before, c :: rest, []⟩ some with
    | some s =>
      if s.rest.length ≤ rest.length then replacement s ++ a.subFrom replacement n s.before s.rest
      else c :: a.subFrom replacement n (some c) rest
    | none => c :: a.subFrom replacement n (some c) rest

def sub (a : Pattern) (replacement : Place → List Char) (s : List Char) : List Char :=
  a.subFrom replacement (s.length + 1) none s

/-! ### What a substitution leaves -/

/-- A text in which something was replaced shows it. -/
def Marked (mark : Char) (before after : List Char) : Prop := after = before ∨ mark ∈ after

theorem Marked.trans {mark : Char} {a b c : List Char} (h : Marked mark a b) (h' : Marked mark b c) :
    Marked mark a c := by
  cases h' with
  | inl heq => rwa [heq]
  | inr hmem => exact .inr hmem

theorem Marked.append {mark : Char} {a b : List Char} (h : Marked mark a b) (front : List Char) :
    Marked mark (front ++ a) (front ++ b) := by
  cases h with
  | inl heq => exact .inl (by rw [heq])
  | inr hmem => exact .inr (List.mem_append_right front hmem)

variable {a : Pattern} {replacement : Place → List Char} {mark : Char}

theorem subFrom_marked (h : ∀ s, mark ∈ replacement s) (n : Nat) (before : Option Char)
    (s : List Char) : Marked mark s (a.subFrom replacement n before s) := by
  induction n generalizing before s with
  | zero => exact .inl rfl
  | succ n ih =>
    cases s with
    | nil => exact .inl rfl
    | cons c rest =>
      unfold subFrom
      split
      · split
        · exact .inr (List.mem_append_left _ (h _))
        · exact (ih (some c) rest).append [c]
      · exact (ih (some c) rest).append [c]

theorem sub_marked (h : ∀ s, mark ∈ replacement s) (s : List Char) :
    Marked mark s (a.sub replacement s) := subFrom_marked h _ none s

theorem longest_le (p : Char → Bool) (most : Option Nat) (text : List Char) :
    longest p most text ≤ text.length := by
  have h : (text.takeWhile p).length ≤ text.length := (List.takeWhile_prefix p).length_le
  unfold longest
  split
  · exact h
  · omega

theorem mem_counts {p : Char → Bool} {least : Nat} {most : Option Nat} {greedy : Bool}
    {text : List Char} {n : Nat} (h : n ∈ counts p least most greedy text) :
    least ≤ n ∧ n ≤ longest p most text := by
  have hmem : n ∈ List.range' least (longest p most text + 1 - least) := by
    cases greedy with
    | false => exact h
    | true => exact List.mem_reverse.mp h
  rw [List.mem_range'_1] at hmem
  omega

/-- The fewest characters that a pattern matches. -/
def fewest : Pattern → Nat
  | .char _ => 1
  | .many _ least _ _ => least
  | .seq a b => a.fewest + b.fewest
  | .alt a b => min a.fewest b.fewest
  | .group _ a => a.fewest
  | .again _ => 0
  | .boundary _ => 0

@[simp] theorem fewest_text (same : Char → Char → Bool) (s : String) :
    (text same s).fewest = s.toList.length := by
  unfold text
  induction s.toList with
  | nil => rfl
  | cons c rest ih =>
    cases rest with
    | nil => rfl
    | cons d rest =>
      have hstep : (all ((c :: d :: rest).map fun c => .char (same c))).fewest =
          1 + (all ((d :: rest).map fun c => .char (same c))).fewest := rfl
      rw [hstep, ih, Nat.add_comm]
      rfl

/-! ### What a match is made of -/

/-- The pattern can lead from one place to the other. -/
inductive Leads : Pattern → Place → Place → Prop
  | char {p : Char → Bool} {s : Place} {c : Char} {rest : List Char} :
    s.rest = c :: rest → p c = true → Leads (.char p) s (s.skip 1)
  | many {p : Char → Bool} {least : Nat} {most : Option Nat} {greedy : Bool} {s : Place} {n : Nat} :
    least ≤ n → n ≤ longest p most s.rest → Leads (.many p least most greedy) s (s.skip n)
  | seq {a b : Pattern} {s m e : Place} : Leads a s m → Leads b m e → Leads (.seq a b) s e
  | first {a b : Pattern} {s e : Place} : Leads a s e → Leads (.alt a b) s e
  | second {a b : Pattern} {s e : Place} : Leads b s e → Leads (.alt a b) s e
  | group {name : Nat} {a : Pattern} {s e : Place} : Leads a s e → Leads (.group name a) s
    { e with groups := (name, s.rest.take (s.rest.length - e.rest.length)) :: e.groups }
  | again {name : Nat} {s : Place} :
    s.group name <+: s.rest → Leads (.again name) s (s.skip (s.group name).length)
  | boundary {isWord : Char → Bool} {s : Place} : Leads (.boundary isWord) s s

/-- What is matched, the pattern can lead to. -/
theorem run_leads {s : Place} {k : Place → Option Place} {r : Place} (h : a.run s k = some r) :
    ∃ e, Leads a s e ∧ k e = some r := by
  induction a generalizing s k with
  | char p =>
    unfold run at h
    split at h
    · exact nomatch h
    · rename_i c rest hrest
      split at h
      · rename_i hc
        exact ⟨_, .char hrest hc, h⟩
      · exact nomatch h
  | many p least most greedy =>
    obtain ⟨n, hn, hk⟩ := List.exists_of_findSome?_eq_some h
    have hbounds := mem_counts hn
    exact ⟨_, .many hbounds.1 hbounds.2, hk⟩
  | seq a b iha ihb =>
    obtain ⟨m, hm, h'⟩ := iha h
    obtain ⟨e, he, hk⟩ := ihb h'
    exact ⟨e, .seq hm he, hk⟩
  | alt a b iha ihb =>
    unfold run at h
    rw [Option.or_eq_some_iff] at h
    cases h with
    | inl h =>
      obtain ⟨e, he, hk⟩ := iha h
      exact ⟨e, .first he, hk⟩
    | inr h =>
      obtain ⟨e, he, hk⟩ := ihb h.2
      exact ⟨e, .second he, hk⟩
  | group name a ih =>
    obtain ⟨e, he, hk⟩ := ih h
    exact ⟨_, .group he, hk⟩
  | again name =>
    unfold run at h
    split at h
    · rename_i hfront
      exact ⟨_, .again hfront, h⟩
    · exact nomatch h
  | boundary isWord =>
    unfold run at h
    split at h
    · exact ⟨s, .boundary, h⟩
    · exact nomatch h

/-- A match goes on in the rest of the text. -/
theorem Leads.suffix {s e : Place} (h : Leads a s e) : e.rest <:+ s.rest := by
  induction h with
  | char | many | again => exact List.drop_suffix ..
  | seq _ _ iha ihb => exact ihb.trans iha
  | first _ ih | second _ ih | group _ ih => exact ih
  | boundary => exact List.suffix_refl _

/-- A match takes so many characters at least. -/
theorem Leads.fewest_le {s e : Place} (h : Leads a s e) : e.rest.length + a.fewest ≤ s.rest.length := by
  induction h with
  | char hrest hp =>
    rw [Place.skip_length, hrest, fewest]
    simp
  | @many p least most greedy s n hleast hn =>
    have hle := longest_le p most s.rest
    rw [Place.skip_length, fewest]
    omega
  | seq _ _ iha ihb =>
    rw [fewest]
    omega
  | first _ ih | second _ ih =>
    rw [fewest]
    omega
  | group _ ih => exact ih
  | again =>
    rw [Place.skip_length, fewest]
    omega
  | boundary => exact Nat.le_refl _

/-- A text that is too short to be matched stays. -/
theorem subFrom_short (n : Nat) (before : Option Char) (s : List Char) (h : s.length < a.fewest) :
    a.subFrom replacement n before s = s := by
  induction n generalizing before s with
  | zero => rfl
  | succ n ih =>
    cases s with
    | nil => rfl
    | cons c rest =>
      have hrest : rest.length < a.fewest := Nat.lt_of_succ_lt h
      have hnone : a.run ⟨before, c :: rest, []⟩ some = none := by
        cases hrun : a.run ⟨before, c :: rest, []⟩ some with
        | none => rfl
        | some r =>
          obtain ⟨e, he, -⟩ := run_leads hrun
          have hle : e.rest.length + a.fewest ≤ (c :: rest).length := he.fewest_le
          omega
      unfold subFrom
      rw [hnone]
      show c :: a.subFrom replacement n (some c) rest = c :: rest
      rw [ih (some c) rest hrest]

theorem sub_short {s : List Char} (h : s.length < a.fewest) : a.sub replacement s = s :=
  subFrom_short _ none s h

/-- Every match takes a character of this kind. -/
inductive Takes (q : Char → Prop) : Pattern → Prop
  | char {p : Char → Bool} : (∀ c, p c = true → q c) → Takes q (.char p)
  | many {p : Char → Bool} {least : Nat} {most : Option Nat} {greedy : Bool} :
    1 ≤ least → (∀ c, p c = true → q c) → Takes q (.many p least most greedy)
  | left {a b : Pattern} : Takes q a → Takes q (.seq a b)
  | right {a b : Pattern} : Takes q b → Takes q (.seq a b)
  | alt {a b : Pattern} : Takes q a → Takes q b → Takes q (.alt a b)
  | group {name : Nat} {a : Pattern} : Takes q a → Takes q (.group name a)

theorem Takes.all {q : Char → Prop} {a : Pattern} {as : List Pattern} (h : a.Takes q) (hmem : a ∈ as) :
    (Pattern.all as).Takes q := by
  induction as with
  | nil => exact absurd hmem List.not_mem_nil
  | cons b rest ih =>
    cases rest with
    | nil => rwa [← List.mem_singleton.mp hmem]
    | cons c rest =>
      show Takes q (.seq b (Pattern.all (c :: rest)))
      cases List.mem_cons.mp hmem with
      | inl heq => exact .left (heq ▸ h)
      | inr hrest => exact .right (ih hrest)

/-- What a repetition takes is of its kind. -/
theorem take_longest {p : Char → Bool} {most : Option Nat} {s : List Char} {n : Nat} (h : n ≤ longest p most s)
    (c : Char) (hc : c ∈ s.take n) : p c = true := by
  have hle : n ≤ (s.takeWhile p).length := by
    unfold longest at h
    split at h <;> omega
  have hfront : s.take n <+: s.takeWhile p := by
    apply List.prefix_of_prefix_length_le (List.take_prefix ..) (List.takeWhile_prefix p)
    rw [List.length_take]
    omega
  exact List.all_eq_true.mp List.all_takeWhile c (hfront.subset hc)

/-- A match has such a character. -/
theorem Takes.mem {q : Char → Prop} (ha : a.Takes q) {s e : Place} (h : Leads a s e) {t : List Char}
    (ht : s.rest = t ++ e.rest) : ∃ c ∈ t, q c := by
  induction ha generalizing s e t with
  | char hp =>
    cases h with
    | char hrest hc =>
      have htail : s.rest.take 1 = t := by
        have hskip : (s.skip 1).rest = s.rest.drop 1 := rfl
        rw [hskip] at ht
        exact List.append_cancel_right ((List.take_append_drop 1 s.rest).trans ht)
      rw [hrest] at htail
      exact ⟨_, htail ▸ List.mem_singleton.mpr rfl, hp _ hc⟩
  | @many p least most greedy hleast hp =>
    cases h with
    | @many _ _ _ _ _ n hn hlongest =>
      have htake : s.rest.take n = t := by
        have hskip : (s.skip n).rest = s.rest.drop n := rfl
        rw [hskip] at ht
        exact List.append_cancel_right ((List.take_append_drop n s.rest).trans ht)
      have hne : s.rest.take n ≠ [] := by
        intro hnil
        have hlength := congrArg List.length hnil
        have hle := longest_le p most s.rest
        rw [List.length_take, List.length_nil] at hlength
        omega
      obtain ⟨c, hc⟩ := List.exists_mem_of_ne_nil _ hne
      exact ⟨c, htake ▸ hc, hp c (take_longest hlongest c hc)⟩
  | left _ ih =>
    cases h with
    | seq ha hb =>
      obtain ⟨t₁, h₁⟩ := ha.suffix
      obtain ⟨t₂, h₂⟩ := hb.suffix
      obtain ⟨c, hc, hq⟩ := ih ha h₁.symm
      have heq : t = t₁ ++ t₂ := by
        rw [← h₁, ← h₂, ← List.append_assoc] at ht
        exact (List.append_cancel_right ht).symm
      exact ⟨c, heq ▸ List.mem_append_left _ hc, hq⟩
  | right _ ih =>
    cases h with
    | seq ha hb =>
      obtain ⟨t₁, h₁⟩ := ha.suffix
      obtain ⟨t₂, h₂⟩ := hb.suffix
      obtain ⟨c, hc, hq⟩ := ih hb h₂.symm
      have heq : t = t₁ ++ t₂ := by
        rw [← h₁, ← h₂, ← List.append_assoc] at ht
        exact (List.append_cancel_right ht).symm
      exact ⟨c, heq ▸ List.mem_append_right _ hc, hq⟩
  | alt _ _ iha ihb =>
    cases h with
    | first h => exact iha h ht
    | second h => exact ihb h ht
  | group _ ih =>
    cases h with
    | group h => exact ih h ht

/-- A text without such a character stays. -/
theorem subFrom_without {q : Char → Prop} (ha : a.Takes q) (n : Nat) (before : Option Char) (s : List Char)
    (h : ∀ c ∈ s, ¬ q c) : a.subFrom replacement n before s = s := by
  induction n generalizing before s with
  | zero => rfl
  | succ n ih =>
    cases s with
    | nil => rfl
    | cons c rest =>
      have hnone : a.run ⟨before, c :: rest, []⟩ some = none := by
        cases hrun : a.run ⟨before, c :: rest, []⟩ some with
        | none => rfl
        | some r =>
          obtain ⟨e, he, -⟩ := run_leads hrun
          obtain ⟨t, ht⟩ := he.suffix
          obtain ⟨d, hd, hq⟩ := ha.mem he ht.symm
          have hmem : d ∈ t ++ e.rest := List.mem_append_left _ hd
          rw [ht] at hmem
          exact absurd hq (h d hmem)
      unfold subFrom
      rw [hnone]
      show c :: a.subFrom replacement n (some c) rest = c :: rest
      rw [ih (some c) rest fun d hd => h d (List.mem_cons_of_mem c hd)]

theorem sub_without {q : Char → Prop} (ha : a.Takes q) {s : List Char} (h : ∀ c ∈ s, ¬ q c) :
    a.sub replacement s = s := subFrom_without ha _ none s h

end Pattern
end Operant.Text
