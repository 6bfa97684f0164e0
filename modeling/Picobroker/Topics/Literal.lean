import Picobroker.Topics.Matching

/-! Filters without a wildcard in force: no level `+`, and no `#` in the last place. -/
namespace Picobroker
open Rust

/-- The look-ahead behind a `#` that is not the last level drops a level. -/
lemma lookAhead_multiLevel (subLevels : LevelIterator) :
    (lookAhead multiLevel subLevels).2.levels = subLevels.levels.tail := by
  rw [lookAhead,if_pos rfl]
  obtain ⟨hn,hl⟩ | ⟨_,_,hn,hl,-⟩ := subLevels.next_cases
  · rw [hn,hl,List.tail_nil]
  · rw [hn,hl,List.tail_cons]

lemma skipBehind_lookAhead (level : Bytes) (subLevels : LevelIterator) :
    Wildcard.skipBehind multiLevel (level::subLevels.levels) =
      level::Wildcard.skipBehind multiLevel (lookAhead level subLevels).2.levels := by
  by_cases h : level = multiLevel
  · rw [h,Wildcard.skipBehind_rest,lookAhead_multiLevel]
  · rw [Wildcard.skipBehind_cons h,lookAhead_snd h]

/-- The levels behind the look-ahead are among those before it, and end like them. -/
lemma lookAhead_suffix (level : Bytes) (subLevels : LevelIterator) :
    (lookAhead level subLevels).2.levels <:+ subLevels.levels := by
  by_cases h : level = multiLevel
  · rw [h,lookAhead_multiLevel]
    exact List.tail_suffix _
  · rw [lookAhead_snd h]

/-- No level of the filter acts as a wildcard. -/
def NoWildcard (filter : List Bytes) : Prop :=
  singleLevel ∉ filter ∧ filter.getLast? ≠ some multiLevel

lemma NoWildcard.suffix {filter filter' : List Bytes} (h : NoWildcard filter)
    (hs : filter' <:+ filter) : NoWildcard filter' := by
  refine ⟨fun hmem => h.1 (hs.subset hmem),?_⟩
  obtain ⟨pre,rfl⟩ := hs
  intro hlast
  apply h.2
  rw [List.getLast?_append,hlast]
  rfl

/-- The loop then looks for the levels of the filter, less the one behind each `#`. -/
lemma topicMatchesLoop_literal (fuel : ℕ) (pubLevels subLevels : LevelIterator)
    (h : subLevels.size < fuel) (hno : NoWildcard subLevels.levels) :
    topicMatchesLoop fuel pubLevels subLevels h =
      decide (pubLevels.levels = Wildcard.skipBehind multiLevel subLevels.levels) := by
  induction fuel generalizing pubLevels subLevels with
  | zero => omega
  | succ fuel ih =>
    have hturn := topicMatchesLoop_turn fuel pubLevels subLevels h
    generalize topicMatchesLoop (fuel+1) pubLevels subLevels h = matched at hturn
    cases hturn with
    | ended sub => rw [sub,Wildcard.skipBehind_nil]
    | rest sub =>
      rw [sub] at hno
      exact absurd rfl hno.2
    | @short level others sub last pub =>
      obtain ⟨g,hg⟩ := Wildcard.exists_skipBehind_cons (L := Bytes) level others
      rw [sub,pub,hg]
      exact (decide_eq_false (List.cons_ne_nil level g).symm).symm
    | @differ level a others rest sub last pub one ne =>
      obtain ⟨g,hg⟩ := Wildcard.exists_skipBehind_cons (L := Bytes) level others
      rw [sub,pub,hg]
      exact (decide_eq_false fun hc => ne (List.cons.inj hc).1).symm
    | @next level a sub' pub' sub last pub agree h' =>
      rw [sub] at hno
      have hone : level ≠ singleLevel := fun hc => hno.1 (hc ▸ List.mem_cons_self)
      have hsuffix : (lookAhead level sub').2.levels <:+ level::sub'.levels :=
        (lookAhead_suffix level sub').trans (List.suffix_cons _ _)
      rw [ih _ _ _ (hno.suffix hsuffix),sub,pub,skipBehind_lookAhead,agree.resolve_left hone]
      simp only [List.cons.injEq,true_and]

/-- A topic is determined by its levels. -/
lemma levels_injective : Function.Injective levels := by
  intro a b h
  have hjoin : ∀ topic, [separator].intercalate (levels topic) = topic :=
    fun _ => List.intercalate_splitOn separator
  rw [← hjoin a,← hjoin b,h]

lemma topicMatches_literal {published filter : Bytes} (hpub : published ≠ []) (hfilter : filter ≠ [])
    (hno : NoWildcard (levels filter)) : topicMatches published filter =
      decide (levels published = Wildcard.skipBehind multiLevel (levels filter)) := by
  rw [topicMatches,topicMatchesLoop_literal _ _ _ _ (by rwa [LevelIterator.levels_new hfilter]),
    LevelIterator.levels_new hpub,LevelIterator.levels_new hfilter]
  rfl

/-- A filter without a wildcard in force is matched by itself alone, unless it has a `#` further
ahead and the topic is the filter, or the filter without the levels right behind each `#`: such a
filter matches the second and not the first. -/
theorem topicMatches_literal_iff (published filter : Bytes) (hpub : published ≠ [])
    (hfilter : filter ≠ []) (hno : NoWildcard (levels filter)) :
    (topicMatches published filter = true ↔ published = filter) ↔
      ¬ (multiLevel ∈ levels filter ∧ (published = filter ∨
        levels published = Wildcard.skipBehind multiLevel (levels filter))) := by
  rw [topicMatches_literal hpub hfilter hno,decide_eq_true_eq]
  by_cases hmem : multiLevel ∈ levels filter
  · have hskip : Wildcard.skipBehind multiLevel (levels filter) ≠ levels filter :=
      fun hc => (Wildcard.skipBehind_eq_self_iff hno.2).mp hc hmem
    constructor
    · rintro h ⟨-,heq | hsk⟩
      · exact hskip ((h.mpr heq).symm.trans (congrArg levels heq))
      · exact hskip (hsk.symm.trans (congrArg levels (h.mp hsk)))
    · intro h
      exact ⟨fun hsk => absurd ⟨hmem,.inr hsk⟩ h,fun heq => absurd ⟨hmem,.inl heq⟩ h⟩
  · rw [Wildcard.skipBehind_of_not_mem hmem,levels_injective.eq_iff]
    simp only [hmem,false_and,not_false_eq_true]

/-- `a/b` and the filter `a/#/b`. -/
theorem topicMatches_literal_other :
    topicMatches [0x61,0x2F,0x62] [0x61,0x2F,0x23,0x2F,0x62] = true ↔
      ([0x61,0x2F,0x62] : Bytes) = [0x61,0x2F,0x23,0x2F,0x62] :=
  (topicMatches_literal_iff _ _ (by decide) (by decide) ⟨by decide,by decide⟩).mpr (by decide)

/-- The filter `a/#/b` is matched by `a/#` and not by itself. -/
theorem topicMatches_not_literal :
    topicMatches [0x61,0x2F,0x23] [0x61,0x2F,0x23,0x2F,0x62] = true ∧
    topicMatches [0x61,0x2F,0x23,0x2F,0x62] [0x61,0x2F,0x23,0x2F,0x62] = false ∧
    ¬ ∀ published filter : Bytes, published ≠ [] → filter ≠ [] → singleLevel ∉ levels filter →
      (levels filter).getLast? ≠ some multiLevel →
      (topicMatches published filter = true ↔ published = filter) := by
  refine ⟨by decide,by decide,?_⟩
  intro h
  have hself := h [0x61,0x2F,0x23,0x2F,0x62] [0x61,0x2F,0x23,0x2F,0x62] (by decide) (by decide)
    (by decide) (by decide)
  revert hself
  decide

end Picobroker
