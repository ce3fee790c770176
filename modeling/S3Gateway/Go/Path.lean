import S3Gateway.Go.Bytes
import S3Gateway.Library.Fields

/-! # Cleaning paths

`path.Clean` on rooted paths, and `cleanPath` of `net/http`, which keeps a trailing slash.
A path is left as it is exactly when its elements are plain, the last one excepted, which
may be empty. -/

namespace Go

/-- What `path.Clean` does with one more element of a rooted path: an empty one and a dot
    say nothing, two dots take the element before them away. -/
def cleanElement (kept : List Bytes) (element : Bytes) : List Bytes :=
  if element = [] ∨ element = str "." then kept
  else if element = str ".." then kept.dropLast
  else kept ++ [element]

/-- The elements `path.Clean` keeps. -/
def cleanElements (p : Bytes) : List Bytes := (split (ch '/') p).foldl cleanElement []

/-- `path.Clean(p)` for a path that starts with a slash. -/
def cleanRooted (p : Bytes) : Bytes := str "/" ++ join (cleanElements p) (str "/")

/-- `cleanPath(p)` of `net/http`. -/
def cleanPath (p : Bytes) : Bytes :=
  if p = [] then str "/"
  else
    let p := if hasPrefix p (str "/") then p else str "/" ++ p
    let np := cleanRooted p
    if hasSuffix p (str "/") ∧ np ≠ str "/" then
      if p.length = np.length + 1 ∧ hasPrefix p np then p else np ++ str "/"
    else np

def PlainElement (element : Bytes) : Prop :=
  element ≠ [] ∧ element ≠ str "." ∧ element ≠ str ".."

instance (element : Bytes) : Decidable (PlainElement element) :=
  inferInstanceAs (Decidable (_ ∧ _))

/-- A slash, and then plain elements of which the last may be empty. -/
def PlainPath (p : Bytes) : Prop :=
  ∃ elements last, split (ch '/') p = [] :: (elements ++ [last]) ∧
    (∀ e ∈ elements, PlainElement e) ∧ (last = [] ∨ PlainElement last)

/-! ## What is kept -/

theorem cleanElement_plain {kept : List Bytes} {element : Bytes} (h : PlainElement element) :
    cleanElement kept element = kept ++ [element] := by
  obtain ⟨hempty, hdot, hdots⟩ := h
  simp [cleanElement, hempty, hdot, hdots]

theorem foldl_cleanElement_plain {elements : List Bytes} (h : ∀ e ∈ elements, PlainElement e)
    (kept : List Bytes) : elements.foldl cleanElement kept = kept ++ elements := by
  induction elements generalizing kept with
  | nil => simp
  | cons e elements ih =>
    rw [List.forall_mem_cons] at h
    rw [List.foldl_cons, cleanElement_plain h.1, ih h.2, List.append_assoc]
    rfl

theorem mem_foldl_cleanElement {elements kept : List Bytes} {e : Bytes}
    (h : e ∈ elements.foldl cleanElement kept) : e ∈ kept ∨ e ∈ elements ∧ PlainElement e := by
  induction elements generalizing kept with
  | nil => exact .inl h
  | cons d elements ih =>
    rcases ih h with h | ⟨h, hplain⟩
    · unfold cleanElement at h
      split at h
      · exact .inl h
      · split at h
        · exact .inl (List.mem_of_mem_dropLast h)
        · rename_i hsilent hdots
          rcases List.mem_append.mp h with h | h
          · exact .inl h
          · obtain rfl := List.mem_singleton.mp h
            rw [not_or] at hsilent
            exact .inr ⟨List.mem_cons_self, hsilent.1, hsilent.2, hdots⟩
    · exact .inr ⟨List.mem_cons_of_mem _ h, hplain⟩

theorem cleanElements_plain {p e : Bytes} (h : e ∈ cleanElements p) :
    PlainElement e ∧ ch '/' ∉ e := by
  rcases mem_foldl_cleanElement h with h | ⟨h, hplain⟩
  · simp at h
  · exact ⟨hplain, Fields.not_mem_of_mem_splitOn h⟩

/-! ## The fixed points -/

theorem str_slash : str "/" = [ch '/'] := by decide

theorem eq_join_split (p : Bytes) : p = join (split (ch '/') p) (str "/") :=
  (List.intercalate_splitOn (ch '/')).symm

theorem hasSuffix_slash_iff {p : Bytes} {first : Bytes} {rest : List Bytes} {last : Bytes}
    (h : split (ch '/') p = first :: (rest ++ [last])) :
    hasSuffix p (str "/") = true ↔ last = [] := by
  have hlast : ch '/' ∉ last := Fields.not_mem_of_mem_splitOn (by rw [← split, h]; simp)
  have hp : p = (first :: rest).flatMap (· ++ [ch '/']) ++ last := by
    rw [eq_join_split p, h, ← List.cons_append]
    exact Fields.intercalate_append_last (ch '/') (first :: rest) last
  rw [hasSuffix, List.isSuffixOf_iff_suffix, str_slash]
  rcases List.eq_nil_or_concat last with rfl | ⟨last', b, rfl⟩
  · obtain ⟨front, e, hfront⟩ := (List.eq_nil_or_concat (first :: rest)).resolve_left (by simp)
    refine iff_of_true ⟨front.flatMap (· ++ [ch '/']) ++ e, ?_⟩ rfl
    rw [hp, hfront]
    simp
  · refine iff_of_false ?_ (by simp)
    intro ⟨t, ht⟩
    rw [hp, List.concat_eq_append, ← List.append_assoc] at ht
    obtain ⟨-, hb⟩ := List.append_inj' ht rfl
    exact hlast (by simp [List.cons.inj hb])

theorem split_rooted (rest : Bytes) : split (ch '/') (ch '/' :: rest) = [] :: split (ch '/') rest := by
  rw [split, List.splitOn_cons_eq_if_modifyHead, if_pos (beq_self_eq_true _)]
  rfl

theorem join_ne_nil {elements : List Bytes} (hne : elements ≠ [])
    (h : ∀ e ∈ elements, PlainElement e) : join elements (str "/") ≠ [] := by
  obtain ⟨e, rest, rfl⟩ := List.exists_cons_of_ne_nil hne
  have he := (h e List.mem_cons_self).1
  cases rest with
  | nil => simpa [join, List.intercalate_singleton] using he
  | cons e' rest => simp [join, List.intercalate_cons_cons, he]

/-- What `cleanPath` makes of a rooted path: the elements kept, and an empty one where
    there was a trailing slash. -/
theorem cleanPath_rooted (rest : Bytes) :
    cleanPath (ch '/' :: rest) = str "/" ++ join (cleanElements (ch '/' :: rest) ++
      if hasSuffix (ch '/' :: rest) (str "/") then [[]] else []) (str "/") := by
  have hrooted : hasPrefix (ch '/' :: rest) (str "/") = true := by simp [hasPrefix, str_slash]
  have hplain : ∀ e ∈ cleanElements (ch '/' :: rest), PlainElement e :=
    fun e he => (cleanElements_plain he).1
  simp only [cleanPath, if_neg (List.cons_ne_nil _ _), hrooted, if_true]
  generalize ch '/' :: rest = p at hplain ⊢
  by_cases hslash : hasSuffix p (str "/") = true
  · by_cases hnone : cleanElements p = []
    · simp [hslash, cleanRooted, hnone, join]
    · have hnp : cleanRooted p ≠ str "/" := by
        simpa [cleanRooted] using join_ne_nil hnone hplain
      rw [if_pos ⟨hslash, hnp⟩, if_pos hslash, cleanRooted]
      have hjoin : join (cleanElements p ++ [[]]) (str "/") =
          join (cleanElements p) (str "/") ++ str "/" :=
        Fields.intercalate_append_nil (ch '/') hnone
      rw [hjoin, ← List.append_assoc]
      -- the source returns the path itself when only the slash was cut off
      split
      · rename_i honly
        obtain ⟨t, ht⟩ := hasPrefix_iff.mp honly.2
        obtain ⟨u, hu⟩ := List.isSuffixOf_iff_suffix.mp hslash
        have hlen : t.length = 1 := by
          have hsum := congrArg List.length ht
          rw [List.length_append] at hsum
          omega
        obtain ⟨-, rfl⟩ := List.append_inj' (hu.trans ht) (by rw [hlen]; rfl)
        exact ht
      · rfl
  · simp [hslash, cleanRooted]

theorem cleanPath_unrooted {p : Bytes} (h : hasPrefix p (str "/") = false) :
    ∃ rest, cleanPath p = ch '/' :: rest := by
  by_cases hp : p = []
  · exact ⟨[], by simp [cleanPath, hp, str_slash]⟩
  · have hsame : cleanPath p = cleanPath (ch '/' :: p) := by
      have hrooted : hasPrefix (ch '/' :: p) (str "/") = true := by simp [hasPrefix, str_slash]
      simp only [cleanPath, if_neg hp, if_neg (List.cons_ne_nil _ _), h, hrooted, if_true,
        Bool.false_eq_true, if_false]
      rfl
    rw [hsame, cleanPath_rooted]
    exact ⟨_, rfl⟩

theorem PlainPath.rooted {p : Bytes} (h : PlainPath p) : ∃ rest, p = ch '/' :: rest := by
  obtain ⟨elements, last, hsplit, -⟩ := h
  obtain ⟨e, rest, hrest⟩ : ∃ e rest, elements ++ [last] = e :: rest := by
    cases elements <;> simp
  rw [eq_join_split p, hsplit, hrest]
  exact ⟨_, rfl⟩

theorem plainPath_of_cleanPath {p : Bytes} (hclean : cleanPath p = p) : PlainPath p := by
  obtain ⟨rest, rfl⟩ : ∃ rest, p = ch '/' :: rest := by
    cases hrooted : hasPrefix p (str "/") with
    | true => exact hasPrefix_iff.mp hrooted
    | false =>
      obtain ⟨rest, hrest⟩ := cleanPath_unrooted hrooted
      exact ⟨rest, hclean.symm.trans hrest⟩
  rw [cleanPath_rooted, str_slash, List.singleton_append, List.cons.injEq] at hclean
  have hfields : ∀ e ∈ cleanElements (ch '/' :: rest) ++ [[]], ch '/' ∉ e := by
    intro e he
    rcases List.mem_append.mp he with he | he
    · exact (cleanElements_plain he).2
    · simp [List.mem_singleton.mp he]
  -- the elements kept are those the path splits into
  by_cases hslash : hasSuffix (ch '/' :: rest) [ch '/'] = true
  · rw [if_pos hslash] at hclean
    refine ⟨cleanElements (ch '/' :: rest), [], ?_, fun e he => (cleanElements_plain he).1, .inl rfl⟩
    have hsplit : split (ch '/') rest = cleanElements (ch '/' :: rest) ++ [[]] := by
      conv_lhs => rw [← hclean.2]
      exact List.splitOn_intercalate (ch '/') hfields (by simp)
    rw [split_rooted, hsplit]
  · rw [if_neg hslash, List.append_nil] at hclean
    rcases List.eq_nil_or_concat (cleanElements (ch '/' :: rest)) with hnone | ⟨front, last, hkept⟩
    · -- nothing kept is the root, which ends in a slash
      rw [hnone] at hclean
      rw [← hclean.2] at hslash
      exact absurd (by decide) hslash
    · rw [List.concat_eq_append] at hkept
      have hplain : ∀ e ∈ front ++ [last], PlainElement e := by
        rw [← hkept]
        exact fun e he => (cleanElements_plain he).1
      refine ⟨front, last, ?_, fun e he => hplain e (List.mem_append_left _ he),
        .inr (hplain last (by simp))⟩
      have hsplit : split (ch '/') rest = cleanElements (ch '/' :: rest) := by
        conv_lhs => rw [← hclean.2]
        exact List.splitOn_intercalate (ch '/') (fun e he => hfields e (List.mem_append_left _ he))
          (by simp [hkept])
      rw [split_rooted, hsplit, hkept]

theorem PlainPath.cleanPath_eq {p : Bytes} (hplain : PlainPath p) : cleanPath p = p := by
  obtain ⟨rest, rfl⟩ := hplain.rooted
  obtain ⟨elements, last, hsplit, helements, hlast⟩ := hplain
  have hkept : cleanElements (ch '/' :: rest) ++
      (if hasSuffix (ch '/' :: rest) (str "/") then [[]] else []) = elements ++ [last] := by
    have hfirst : cleanElement [] [] = [] := by simp [cleanElement]
    rw [cleanElements, hsplit, List.foldl_cons, List.foldl_append, hfirst,
      foldl_cleanElement_plain helements]
    simp only [hasSuffix_slash_iff hsplit]
    rcases hlast with rfl | hlast
    · simp [cleanElement]
    · simp [cleanElement_plain hlast, hlast.1]
  obtain ⟨e, more, hmore⟩ : ∃ e more, elements ++ [last] = e :: more := by
    cases elements <;> simp
  rw [cleanPath_rooted, hkept]
  conv_rhs => rw [eq_join_split (ch '/' :: rest), hsplit, hmore]
  rw [hmore, join, join, List.intercalate_cons_cons, List.nil_append]

theorem cleanPath_eq_self_iff {p : Bytes} : cleanPath p = p ↔ PlainPath p :=
  ⟨plainPath_of_cleanPath, PlainPath.cleanPath_eq⟩

end Go
