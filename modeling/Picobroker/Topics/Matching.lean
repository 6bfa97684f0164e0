import Picobroker.Topics.Wildcard
import Picobroker.Rust.Word

/-! `topic_matches` and the iterator over the levels of a topic. -/
namespace Picobroker
open Rust

/-- The bytes `/`, `+` and `#`. -/
def separator : UInt8 := 0x2F
def singleLevel : Bytes := [0x2B]
def multiLevel : Bytes := [0x23]

structure LevelIterator where
  remaining : Bytes
  pendingEmpty : Bool
  deriving DecidableEq, Repr

namespace LevelIterator

def new (topic : Bytes) : LevelIterator := ⟨topic,false⟩

def next (it : LevelIterator) : Option Bytes × LevelIterator :=
  if it.pendingEmpty then (some [],{ it with pendingEmpty := false })
  else if it.remaining.isEmpty then (none,it)
  else match it.remaining.findIdx? (· == separator) with
    | some pos =>
      let remaining := it.remaining.drop (pos+1)
      (some (it.remaining.take pos),⟨remaining,remaining.isEmpty⟩)
    | none => (some it.remaining,⟨[],false⟩)

/-- Twice the bytes left, and one for a level that is pending. -/
def size (it : LevelIterator) : ℕ := 2*it.remaining.length+it.pendingEmpty.toNat

lemma findIdx?_separator (bytes : Bytes) :
    (separator ∉ bytes ∧ bytes.findIdx? (· == separator) = none) ∨
    ∃ pre post, separator ∉ pre ∧ bytes = pre ++ separator::post ∧
      bytes.findIdx? (· == separator) = some pre.length := by
  by_cases h : separator ∈ bytes
  · obtain ⟨pre,post,rfl,hpre⟩ := List.eq_append_cons_of_mem h
    have hnone : pre.findIdx? (· == separator) = none := by
      rw [List.findIdx?_eq_none_iff]
      intro b hb
      exact beq_false_of_ne (fun he => hpre (he ▸ hb))
    refine .inr ⟨pre,post,hpre,rfl,?_⟩
    rw [List.findIdx?_append,hnone,List.findIdx?_cons]
    simp
  · refine .inl ⟨h,?_⟩
    rw [List.findIdx?_eq_none_iff]
    intro b hb
    exact beq_false_of_ne (fun he => h (he ▸ hb))

/-- The levels still to come. -/
def levels (it : LevelIterator) : List Bytes :=
  (if it.pendingEmpty then [[]] else []) ++
    (if it.remaining = [] then [] else it.remaining.splitOn separator)

lemma levels_new {topic : Bytes} (h : topic ≠ []) :
    (new topic).levels = topic.splitOn separator := by
  simp [levels,new,h]

/-- What a step of the iterator can do: the next level and a smaller iterator over the others, or
nothing when no level is left. -/
lemma next_cases (it : LevelIterator) :
    (it.next = (none,it) ∧ it.levels = []) ∨
    ∃ level it', it.next = (some level,it') ∧ it.levels = level::it'.levels ∧
      it'.size < it.size := by
  obtain ⟨remaining,_ | _⟩ := it
  · by_cases hr : remaining = []
    · subst hr
      exact .inl ⟨rfl,rfl⟩
    have he : remaining.isEmpty = false := by simpa using hr
    obtain ⟨hno,hf⟩ | ⟨pre,post,hpre,rfl,hf⟩ := findIdx?_separator remaining
    · refine .inr ⟨remaining,⟨[],false⟩,?_,?_,?_⟩
      · simp only [next,he,hf,Bool.false_eq_true,if_false]
      · simp [levels,hr,List.splitOn_eq_singleton hno]
      · have hpos := List.length_pos_iff.mpr hr
        simp only [size,List.length_nil,Bool.toNat_false]
        omega
    · refine .inr ⟨pre,⟨post,post.isEmpty⟩,?_,?_,?_⟩
      · simp only [next,he,hf,Bool.false_eq_true,if_false]
        simp
      · have hs := List.splitOn_append_cons_self_of_not_mem hpre post
        cases post with
        | nil => simp [levels,hs]
        | cons b post => simp [levels,hs]
      · simp only [size,List.length_append,List.length_cons,Bool.toNat_false]
        have hb : post.isEmpty.toNat ≤ 1 := Bool.toNat_le _
        omega
  · refine .inr ⟨[],⟨remaining,false⟩,rfl,?_,?_⟩
    · simp [levels]
    · simp [size]

lemma next_size (it : LevelIterator) {level : Bytes} (h : it.next.1 = some level) :
    it.next.2.size < it.size := by
  obtain ⟨hn,-⟩ | ⟨l,it',hn,-,hs⟩ := it.next_cases
  · rw [hn] at h
    cases h
  · rw [hn]
    exact hs

lemma next_size_le (it : LevelIterator) : it.next.2.size ≤ it.size := by
  obtain ⟨hn,-⟩ | ⟨l,it',hn,-,hs⟩ := it.next_cases
  · rw [hn]
  · rw [hn]
    exact hs.le

end LevelIterator

/-- `level == "#" && sub_levels.next().is_none()`, and the iterator afterwards: the look-ahead takes
a level when it finds one. -/
def lookAhead (level : Bytes) (subLevels : LevelIterator) : Bool × LevelIterator :=
  if level = multiLevel then (subLevels.next.1.isNone,subLevels.next.2) else (false,subLevels)

lemma lookAhead_size_le (level : Bytes) (subLevels : LevelIterator) :
    (lookAhead level subLevels).2.size ≤ subLevels.size := by
  unfold lookAhead
  split
  · exact subLevels.next_size_le
  · exact le_rfl

lemma lookAhead_fst (level : Bytes) (subLevels : LevelIterator) :
    (lookAhead level subLevels).1 = true ↔ level = multiLevel ∧ subLevels.levels = [] := by
  unfold lookAhead
  by_cases h : level = multiLevel
  · obtain ⟨hn,hl⟩ | ⟨_,_,hn,hl,-⟩ := subLevels.next_cases
    · simp [h,hn,hl]
    · simp [h,hn,hl]
  · simp [h]

lemma lookAhead_snd {level : Bytes} (h : level ≠ multiLevel) (subLevels : LevelIterator) :
    (lookAhead level subLevels).2 = subLevels := by
  rw [lookAhead,if_neg h]

/-- The loop of `topic_matches`. Each turn takes a level of the filter, so there are fewer turns
than `fuel`. -/
def topicMatchesLoop : (fuel : ℕ) → (pubLevels subLevels : LevelIterator) →
    subLevels.size < fuel → Bool
  | fuel+1,pubLevels,subLevels,h =>
    match hs : subLevels.next.1 with
    | none => pubLevels.next.1.isNone
    | some level =>
      if (lookAhead level subLevels.next.2).1 then true
      else match pubLevels.next.1 with
        | none => false
        | some pubLevel =>
          if level = singleLevel ∨ pubLevel = level then
            topicMatchesLoop fuel pubLevels.next.2 (lookAhead level subLevels.next.2).2
              (by
                have h₁ := lookAhead_size_le level subLevels.next.2
                have h₂ := subLevels.next_size hs
                omega)
          else false

def topicMatches (published filter : Bytes) : Bool :=
  topicMatchesLoop (2*filter.length+1) (.new published) (.new filter)
    (by simp [LevelIterator.new,LevelIterator.size])

/-- What a turn of the loop can do, by the levels that are left: it has the answer, or it goes on behind
a level of each side. -/
inductive MatchTurn (fuel : ℕ) (pubLevels subLevels : LevelIterator) : Bool → Prop
  | ended (sub : subLevels.levels = []) :
      MatchTurn fuel pubLevels subLevels (decide (pubLevels.levels = []))
  | rest (sub : subLevels.levels = [multiLevel]) : MatchTurn fuel pubLevels subLevels true
  | short {level : Bytes} {others : List Bytes} (sub : subLevels.levels = level::others)
      (last : ¬ (level = multiLevel ∧ others = [])) (pub : pubLevels.levels = []) :
      MatchTurn fuel pubLevels subLevels false
  | differ {level a : Bytes} {others rest : List Bytes} (sub : subLevels.levels = level::others)
      (last : ¬ (level = multiLevel ∧ others = [])) (pub : pubLevels.levels = a::rest)
      (one : level ≠ singleLevel) (ne : a ≠ level) : MatchTurn fuel pubLevels subLevels false
  | next {level a : Bytes} {sub' pub' : LevelIterator} (sub : subLevels.levels = level::sub'.levels)
      (last : ¬ (level = multiLevel ∧ sub'.levels = [])) (pub : pubLevels.levels = a::pub'.levels)
      (agree : level = singleLevel ∨ a = level) (h : (lookAhead level sub').2.size < fuel) :
      MatchTurn fuel pubLevels subLevels (topicMatchesLoop fuel pub' (lookAhead level sub').2 h)

lemma topicMatchesLoop_turn (fuel : ℕ) (pubLevels subLevels : LevelIterator)
    (h : subLevels.size < fuel+1) :
    MatchTurn fuel pubLevels subLevels (topicMatchesLoop (fuel+1) pubLevels subLevels h) := by
  rw [topicMatchesLoop]
  split
  · rename_i hs
    obtain ⟨-,hl⟩ | ⟨_,_,hn,-⟩ := subLevels.next_cases
    · have hpub : pubLevels.next.1.isNone = decide (pubLevels.levels = []) := by
        obtain ⟨hp,hpl⟩ | ⟨a,pub',hp,hpl,-⟩ := pubLevels.next_cases
        · rw [hp,hpl]
          rfl
        · rw [hp,hpl]
          rfl
      rw [hpub]
      exact .ended hl
    · rw [hn] at hs
      cases hs
  · rename_i level hs
    obtain ⟨hn,-⟩ | ⟨_,sub',hn,hsub,hsize⟩ := subLevels.next_cases
    · rw [hn] at hs
      cases hs
    rw [hn] at hs
    cases hs
    simp only [hn]
    by_cases hlast : level = multiLevel ∧ sub'.levels = []
    · rw [if_pos ((lookAhead_fst level sub').mpr hlast)]
      rw [hlast.1,hlast.2] at hsub
      exact .rest hsub
    rw [if_neg (mt (lookAhead_fst level sub').mp hlast)]
    obtain ⟨hp,hpl⟩ | ⟨a,pub',hp,hpl,-⟩ := pubLevels.next_cases
    · simp only [hp]
      exact .short hsub hlast hpl
    simp only [hp]
    by_cases ha : level = singleLevel ∨ a = level
    · have hle := lookAhead_size_le level sub'
      rw [if_pos ha]
      exact .next hsub hlast hpl ha (by omega)
    · rw [if_neg ha]
      rw [not_or] at ha
      exact .differ hsub hlast hpl ha.1 ha.2

/-- The loop compares the levels that the two iterators still hold. A look-ahead that takes a level
does so behind a `#` that is not the last level, which no published level equals. -/
lemma topicMatchesLoop_eq (fuel : ℕ) (pubLevels subLevels : LevelIterator)
    (h : subLevels.size < fuel) (hpub : multiLevel ∉ pubLevels.levels) :
    topicMatchesLoop fuel pubLevels subLevels h =
      Wildcard.matchLevels singleLevel multiLevel pubLevels.levels subLevels.levels := by
  induction fuel generalizing pubLevels subLevels with
  | zero => omega
  | succ fuel ih =>
    have hturn := topicMatchesLoop_turn fuel pubLevels subLevels h
    generalize topicMatchesLoop (fuel+1) pubLevels subLevels h = matched at hturn
    cases hturn with
    | ended sub =>
      rw [sub]
      cases pubLevels.levels <;> rfl
    | rest sub => rw [sub,Wildcard.matchLevels_rest]
    | short sub last pub => rw [sub,pub,Wildcard.matchLevels_nil_cons last]
    | differ sub last pub one ne =>
      rw [sub,pub,Wildcard.matchLevels_literal last one,decide_eq_false ne,Bool.false_and]
    | @next level a sub' pub' sub last pub agree h' =>
      rw [pub,List.mem_cons,not_or] at hpub
      have hne : level ≠ multiLevel := by
        rintro rfl
        obtain hone | ha := agree
        · exact absurd hone (by decide)
        · exact hpub.1 ha.symm
      rw [ih _ _ _ hpub.2,lookAhead_snd hne,sub,pub]
      by_cases hone : level = singleLevel
      · rw [hone,Wildcard.matchLevels_one (by decide)]
      · rw [Wildcard.matchLevels_literal last hone,decide_eq_true (agree.resolve_left hone),
          Bool.true_and]

/-- The pieces of a topic between its separators. -/
def levels (topic : Bytes) : List Bytes := topic.splitOn separator

lemma topicMatches_eq (published filter : Bytes) (hpub : published ≠ []) (hfilter : filter ≠ [])
    (hlevels : multiLevel ∉ levels published) : topicMatches published filter =
      Wildcard.matchLevels singleLevel multiLevel (levels published) (levels filter) := by
  rw [topicMatches,topicMatchesLoop_eq _ _ _ _ (by rwa [LevelIterator.levels_new hpub]),
    LevelIterator.levels_new hpub,LevelIterator.levels_new hfilter]
  rfl

/-- For a published topic without a level `#`, `topic_matches` is the wildcard matching of levels. -/
theorem topicMatches_iff (published filter : Bytes) (hpub : published ≠ []) (hfilter : filter ≠ [])
    (hlevels : multiLevel ∉ levels published) : topicMatches published filter = true ↔
      Wildcard.matchLevels singleLevel multiLevel (levels published) (levels filter) = true := by
  rw [topicMatches_eq published filter hpub hfilter hlevels]

/-- `a/` has an empty last level, which `a/+` takes. -/
theorem topicMatches_trailing_separator : topicMatches [0x61,0x2F] [0x61,0x2F,0x2B] = true :=
  (topicMatches_iff _ _ (by decide) (by decide) (by decide)).mpr (by decide)

end Picobroker
