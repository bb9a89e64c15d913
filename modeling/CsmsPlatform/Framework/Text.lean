import Mathlib.Data.List.DropRight
import Mathlib.Data.List.Infix

/-!
# Text

Prefixes, suffixes, white space and separated segments of a text. A text is a sequence of Unicode
characters.
-/

namespace Text

def hasPrefix (s p : String) : Bool := p.toList.isPrefixOf s.toList

def hasSuffix (s p : String) : Bool := p.toList.isSuffixOf s.toList

def trimPrefix (s p : String) : String :=
  if hasPrefix s p then String.ofList (s.toList.drop p.toList.length) else s

def trimSuffix (s p : String) : String :=
  if hasSuffix s p then String.ofList (s.toList.take (s.toList.length-p.toList.length)) else s

theorem hasPrefix_iff {s p : String} : hasPrefix s p = true ↔ ∃ t, s = p ++ t := by
  unfold hasPrefix
  rw [List.isPrefixOf_iff_prefix]
  constructor
  · rintro ⟨t,ht⟩
    exact ⟨String.ofList t,String.toList_inj.mp (by simp [← ht])⟩
  · rintro ⟨t,rfl⟩
    exact ⟨t.toList,by simp⟩

theorem hasSuffix_iff {s p : String} : hasSuffix s p = true ↔ ∃ t, s = t ++ p := by
  unfold hasSuffix
  rw [List.isSuffixOf_iff_suffix]
  constructor
  · rintro ⟨t,ht⟩
    exact ⟨String.ofList t,String.toList_inj.mp (by simp [← ht])⟩
  · rintro ⟨t,rfl⟩
    exact ⟨t.toList,by simp⟩

@[simp] theorem hasPrefix_append (p t : String) : hasPrefix (p ++ t) p = true :=
  hasPrefix_iff.mpr ⟨t,rfl⟩

@[simp] theorem hasSuffix_append (t p : String) : hasSuffix (t ++ p) p = true :=
  hasSuffix_iff.mpr ⟨t,rfl⟩

@[simp] theorem trimPrefix_append (p t : String) : trimPrefix (p ++ t) p = t := by
  simp [trimPrefix]

@[simp] theorem trimSuffix_append (t p : String) : trimSuffix (t ++ p) p = t := by
  simp [trimSuffix]

theorem hasPrefix_between (p t q : String) : hasPrefix (p ++ t ++ q) p = true := by
  rw [String.append_assoc,hasPrefix_append]

theorem trim_between (p t q : String) : trimSuffix (trimPrefix (p ++ t ++ q) p) q = t := by
  rw [String.append_assoc,trimPrefix_append,trimSuffix_append]

theorem length_between (p t q : String) : (p ++ t ++ q).length = p.length+t.length+q.length := by
  rw [String.length_append,String.length_append]

theorem trimSuffix_of_not {s p : String} (h : hasSuffix s p = false) : trimSuffix s p = s := by
  simp [trimSuffix,h]

/-- The characters with the Unicode property `White_Space`. -/
def isSpace (c : Char) : Bool :=
  decide (c.toNat ∈ [9,10,11,12,13,32,0x85,0xA0,0x1680,0x2028,0x2029,0x202F,0x205F,0x3000]) ||
    decide (0x2000 ≤ c.toNat ∧ c.toNat ≤ 0x200A)

def trimSpace (s : String) : String :=
  String.ofList ((s.toList.dropWhile isSpace).rdropWhile isSpace)

theorem trimSpace_of_no_space {s : String} (h : ∀ c ∈ s.toList, isSpace c = false) :
    trimSpace s = s := by
  have hfront : s.toList.dropWhile isSpace = s.toList := by
    rw [List.dropWhile_eq_self_iff]
    intro hpos hspace
    simp [h _ (List.getElem_mem hpos)] at hspace
  have hback : s.toList.rdropWhile isSpace = s.toList := by
    rw [List.rdropWhile_eq_self_iff]
    intro hne hspace
    simp [h _ (List.getLast_mem hne)] at hspace
  rw [trimSpace,hfront,hback,String.ofList_toList]

/-! ## Segments -/

def split (s : String) (sep : Char) : List String := (s.toList.splitOn sep).map String.ofList

theorem split_head (s : String) (sep : Char) :
    (split s sep).headD "" = String.ofList (s.toList.takeWhile (· ≠ sep)) := by
  unfold split
  by_cases hsep : sep ∈ s.toList
  · obtain ⟨first,rest,hs,hfirst⟩ := List.eq_append_cons_of_mem hsep
    have hwhile : (first ++ sep::rest).takeWhile (· ≠ sep) = first := by
      rw [List.takeWhile_append_of_pos (fun c hc => by simpa using fun he : c = sep => hfirst (he ▸ hc))]
      simp
    rw [hs,List.splitOn_append_cons_self_of_not_mem hfirst,hwhile]
    rfl
  · have hwhile : s.toList.takeWhile (· ≠ sep) = s.toList :=
      List.takeWhile_eq_self_iff.mpr fun c hc => by simpa using fun he : c = sep => hsep (he ▸ hc)
    rw [List.splitOn_eq_singleton hsep,hwhile]
    rfl

theorem split_head_of_not_mem {s : String} {sep : Char} (h : sep ∉ s.toList) :
    (split s sep).headD "" = s := by
  simp [split,List.splitOn_eq_singleton h]

theorem split_head_append (s t : String) (sep : Char) :
    (split (s ++ String.singleton sep ++ t) sep).headD "" = (split s sep).headD "" := by
  rw [split_head,split_head,String.toList_append,String.toList_append,String.toList_singleton,
    List.append_assoc,List.takeWhile_append]
  split
  · next hall =>
    rw [(List.takeWhile_prefix _).eq_of_length hall]
    simp
  · rfl

/-- A stretch without the separator, between two separators or the ends of the text. -/
def IsSegment (sep : Char) (part whole : List Char) : Prop :=
  sep ∉ part ∧ ∃ before after, before ++ part ++ after = whole ∧
    (before = [] ∨ [sep] <:+ before) ∧ (after = [] ∨ [sep] <+: after)

private theorem isSegment_of_mem_splitOn {sep : Char} {part whole : List Char}
    (h : part ∈ whole.splitOn sep) : IsSegment sep part whole := by
  induction hlen : whole.length using Nat.strong_induction_on generalizing whole with
  | _ n ih =>
    by_cases hsep : sep ∈ whole
    · obtain ⟨first,rest,rfl,hfirst⟩ := List.eq_append_cons_of_mem hsep
      rw [List.splitOn_append_cons_self_of_not_mem hfirst,List.mem_cons] at h
      rcases h with rfl | h
      · exact ⟨hfirst,[],sep::rest,by simp,.inl rfl,.inr ⟨rest,rfl⟩⟩
      · obtain ⟨hpart,before,after,rfl,hbefore,hafter⟩ := ih rest.length (by simp [← hlen]; omega) h rfl
        refine ⟨hpart,first ++ sep::before,after,by simp,.inr ?_,hafter⟩
        rcases hbefore with rfl | ⟨front,rfl⟩
        · exact ⟨first,rfl⟩
        · exact ⟨first ++ sep::front,by simp⟩
    · rw [List.splitOn_eq_singleton hsep,List.mem_singleton] at h
      subst h
      exact ⟨hsep,[],[],by simp,.inl rfl,.inl rfl⟩

private theorem mem_splitOn_of_isSegment {sep : Char} {part whole : List Char}
    (h : IsSegment sep part whole) : part ∈ whole.splitOn sep := by
  obtain ⟨hpart,before,after,rfl,hbefore,hafter⟩ := h
  have hend : part ∈ (part ++ after).splitOn sep := by
    rcases hafter with rfl | ⟨rest,rfl⟩
    · simp [List.splitOn_eq_singleton hpart]
    · simp [List.splitOn_append_cons_self_of_not_mem hpart]
  rcases hbefore with rfl | ⟨front,rfl⟩
  · exact hend
  · have hwhole : front ++ [sep] ++ part ++ after = front ++ sep::(part ++ after) := by simp
    rw [hwhole,List.splitOn_append_cons_self,List.mem_append]
    exact .inr hend

theorem mem_split_iff {s part : String} {sep : Char} :
    part ∈ split s sep ↔ IsSegment sep part.toList s.toList := by
  unfold split
  rw [List.mem_map]
  constructor
  · rintro ⟨chars,hchars,rfl⟩
    rw [String.toList_ofList]
    exact isSegment_of_mem_splitOn hchars
  · intro h
    exact ⟨part.toList,mem_splitOn_of_isSegment h,String.ofList_toList⟩

end Text
