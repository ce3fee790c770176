import S3Gateway.Library.Machine
import S3Gateway.S3gw.BodyReading

/-! # What a consumer gets of a hashed body

A consumer reads through the verifier with buffers of its own sizes.  Whatever it has when it stops,
it never has a body with another hash in full, nor the end of one. -/

namespace S3Gateway.S3gw

open Go S3err Sigv4

/-- What calls with buffers of these sizes return, one after another. -/
def PayloadVerifier.replies (crypto : Crypto) : PayloadVerifier → List Nat → List (Bytes × Option ReadError)
  | _, [] => []
  | v, n :: sizes =>
    let (d, e, v') := v.read crypto n
    (d, e) :: v'.replies crypto sizes

def handedOut (replies : List (Bytes × Option ReadError)) : Bytes := (replies.map Prod.fst).flatten

@[simp] theorem handedOut_nil : handedOut [] = [] := rfl

@[simp]
theorem handedOut_cons (d : Bytes) (e : Option ReadError) (replies : List (Bytes × Option ReadError)) :
    handedOut ((d, e) :: replies) = d ++ handedOut replies := rfl

section Consumer

variable {crypto : Crypto} {body : Source} {delivered : Bytes} {v : PayloadVerifier}

theorem PayloadVerifier.replies_cons {n : Nat} {d : Bytes} {e : Option ReadError} {v' : PayloadVerifier}
    (h : v.read crypto n = (d, e, v')) (sizes : List Nat) :
    v.replies crypto (n :: sizes) = (d, e) :: v'.replies crypto sizes := by
  simp only [PayloadVerifier.replies, h]

/-- Not all of the body has been delivered, unless it is empty. -/
def Short (body : Source) (delivered : Bytes) : Prop :=
  delivered.length < body.bytes.length ∨ body.bytes = [] ∧ delivered = []

theorem PayloadVerifier.At.short (hv : v.At crypto body body.bytes.length delivered) (hopen : v.done = false) :
    Short body delivered := by
  rcases hv.pending hopen with rfl | hmore
  · by_cases hempty : body.bytes = []
    · exact .inr ⟨hempty, rfl⟩
    · exact .inl (List.length_pos_iff.mpr hempty)
  · have hremaining := hv.remaining
    exact .inl (by omega)

theorem PayloadVerifier.At.hash_of_done (hv : v.At crypto body body.bytes.length delivered) (hdone : v.done = true) :
    hexEncode (crypto.sha256 body.bytes) = v.want := by
  obtain ⟨hempty, hmatch⟩ := hv.sound.compared hdone
  rw [hv.written] at hmatch
  rw [hv.rest, hempty, List.append_nil]
  exact hmatch

/-! ## Any consumer -/

/-- The verifier with a consumer that has these bytes: it goes on, or it has refused the body. -/
inductive Consumed (crypto : Crypto) (body : Source) (want delivered : Bytes) (v : PayloadVerifier) : Prop
  | intact (h : v.At crypto body body.bytes.length delivered) (hwant : v.want = want)
  | withheld (hdone : v.done = true) (hend : v.r.bytes = []) (hshort : Short body delivered)

theorem Consumed.read {want : Bytes} (h : Consumed crypto body want delivered v) {n : Nat} {d : Bytes}
    {e : Option ReadError} {v' : PayloadVerifier} (hread : v.read crypto n = (d, e, v')) :
    Consumed crypto body want (delivered ++ d) v' := by
  cases h with
  | intact h hwant =>
    -- the mismatch takes the last bytes with it, every other outcome hands them on
    by_cases he : e = some (.s3 contentSHA256Mismatch)
    · cases PayloadVerifier.reads hread with
      | refused hsource hopen hnow _ =>
        rw [List.append_nil]
        exact .withheld rfl (h.sound.bytes_eq_nil hsource hnow) (h.short hopen)
      | compared => simp at he
      | passed => simp at he
    · obtain ⟨h', hsame⟩ := h.read hread he
      exact .intact h' (hsame.trans hwant)
  | withheld hdone hend hshort =>
    -- the bytes withheld are gone, and there are no others
    cases PayloadVerifier.reads hread with
    | refused _ hopen => simp [hdone] at hopen
    | compared _ hopen => simp [hdone] at hopen
    | passed hsource =>
      have hbytes := Source.read_bytes hsource
      rw [hend] at hbytes
      obtain ⟨rfl, hr⟩ := List.append_eq_nil_iff.mp hbytes.symm
      rw [List.append_nil]
      exact .withheld hdone hr hshort

theorem Consumed.replies {want : Bytes} (h : Consumed crypto body want delivered v) (sizes : List Nat) :
    ∃ v', Consumed crypto body want (delivered ++ handedOut (v.replies crypto sizes)) v' := by
  induction sizes generalizing v delivered with
  | nil => exact ⟨v, by simpa [PayloadVerifier.replies] using h⟩
  | cons n sizes ih =>
    rcases hread : v.read crypto n with ⟨d, e, v'⟩
    obtain ⟨last, hlast⟩ := ih (h.read hread)
    refine ⟨last, ?_⟩
    rw [PayloadVerifier.replies_cons hread, handedOut_cons, ← List.append_assoc]
    exact hlast

/-- A consumer that has as many bytes as were declared has the body that was signed. -/
theorem Consumed.hash_of_length {want : Bytes} (h : Consumed crypto body want delivered v) (hne : body.bytes ≠ [])
    (hlen : delivered.length = body.bytes.length) : hexEncode (crypto.sha256 delivered) = want := by
  have hpos : 0 < body.bytes.length := List.length_pos_iff.mpr hne
  cases h with
  | intact h hwant =>
    obtain ⟨-, -, hmatch⟩ := h.hashes_of_length (by omega) (by omega)
    rw [hmatch, hwant]
  | withheld _ _ hshort =>
    rcases hshort with hless | ⟨hempty, -⟩
    · omega
    · exact absurd hempty hne

/-! ## A consumer that stops at the first error -/

theorem PayloadVerifier.At.hash_of_eof (hv : v.At crypto body body.bytes.length delivered) {sizes : List Nat}
    {before : List (Bytes × Option ReadError)} {d : Bytes}
    (hreplies : v.replies crypto sizes = before ++ [(d, some (.io .eof))]) (hbefore : ∀ x ∈ before, x.2 = none) :
    hexEncode (crypto.sha256 (delivered ++ handedOut (before ++ [(d, some (.io .eof))]))) = v.want := by
  induction sizes generalizing v delivered before with
  | nil => simp [PayloadVerifier.replies] at hreplies
  | cons n sizes ih =>
    rcases hread : v.read crypto n with ⟨d₁, e₁, v'⟩
    rw [PayloadVerifier.replies_cons hread] at hreplies
    cases before with
    | nil =>
      obtain ⟨hfirst, -⟩ := List.cons.inj hreplies
      cases hfirst
      obtain ⟨-, -, hmatch⟩ := hv.hashes_of_eof hread fun _ => rfl
      simpa using hmatch
    | cons x before =>
      obtain ⟨rfl, hrest⟩ := List.cons.inj hreplies
      obtain rfl : e₁ = none := hbefore _ List.mem_cons_self
      obtain ⟨hv', hwant⟩ := hv.read hread (by simp)
      have hlast := ih hv' hrest fun x hx => hbefore x (List.mem_cons_of_mem _ hx)
      rw [List.append_assoc, hwant] at hlast
      exact hlast

/-- A consumer with these buffers, in an endless row, is refused: the mismatch is its first error. -/
def Refused (crypto : Crypto) (body : Source) (delivered : Bytes) (v : PayloadVerifier) (sizes : Nat → Nat) : Prop :=
  ∃ k before, v.replies crypto ((List.range (k + 1)).map sizes) = before ++ [([], some (.s3 contentSHA256Mismatch))] ∧
    (∀ x ∈ before, x.2 = none) ∧ Short body (delivered ++ handedOut before)

theorem Refused.cons {sizes : Nat → Nat} {d : Bytes} {v' : PayloadVerifier} (hread : v.read crypto (sizes 0) = (d, none, v'))
    (h : Refused crypto body (delivered ++ d) v' fun k => sizes (k + 1)) : Refused crypto body delivered v sizes := by
  obtain ⟨k, before, hreplies, hbefore, hshort⟩ := h
  refine ⟨k + 1, (d, none) :: before, ?_, ?_, ?_⟩
  · rw [Machine.map_range_succ, PayloadVerifier.replies_cons hread, hreplies, List.cons_append]
  · intro x hx
    rcases List.mem_cons.mp hx with rfl | hx
    · rfl
    · exact hbefore x hx
  · rw [handedOut_cons, ← List.append_assoc]
    exact hshort

/-- The calls use up the source, and the one that reaches its end finds the mismatch. -/
theorem PayloadVerifier.At.refused (hv : v.At crypto body body.bytes.length delivered)
    (hdiffers : hexEncode (crypto.sha256 body.bytes) ≠ v.want) {sizes : Nat → Nat} (hsizes : ∀ k, 0 < sizes k) :
    Refused crypto body delivered v sizes := by
  induction hsize : v.r.size using Nat.strong_induction_on generalizing v delivered sizes with
  | _ size ih =>
    rcases hread : v.read crypto (sizes 0) with ⟨d, e, v'⟩
    have hopen : v.done = false := Bool.eq_false_iff.mpr fun hdone => hdiffers (hv.hash_of_done hdone)
    cases PayloadVerifier.reads hread with
    | refused =>
      refine ⟨0, [], ?_, List.forall_mem_nil _, by simpa using hv.short hopen⟩
      rw [show (List.range (0 + 1)).map sizes = [sizes 0] from rfl, PayloadVerifier.replies_cons hread]
      rfl
    | compared =>
      -- only the hash of the whole body passes
      obtain ⟨hv', -⟩ := hv.read hread (by simp)
      exact absurd (hv'.hash_of_done rfl) hdiffers
    | @passed _ e₀ r hsource hlater =>
      obtain ⟨hv', -⟩ := hv.read hread (by simp)
      obtain ⟨hmore, -⟩ := hlater.resolve_left (by simp [hopen])
      -- bytes are left, so the source has not ended
      obtain rfl : e₀ = none := by
        rw [← Option.not_isSome_iff_eq_none, Option.isSome_iff_exists]
        rintro ⟨err, rfl⟩
        have hrest := hv'.rest
        have hremaining := hv'.remaining
        simp only [Source.bytes, Source.read_error hsource, List.flatten_nil, List.append_nil] at hrest
        simp only [Source.bytes, hrest] at hremaining
        omega
      have hless : r.size < size := by
        obtain ⟨hle, hlt⟩ := Source.read_size (Nat.pos_iff_ne_zero.mp (hsizes 0)) hsource
        by_cases hd : d = []
        · exact hsize ▸ hlt hd rfl
        · have := List.length_pos_iff.mpr hd
          omega
      exact Refused.cons hread (ih r.size hless hv' hdiffers (fun k => hsizes (k + 1)) rfl)

end Consumer

/-- What the verifier owes the consumers of a body whose length is the declared one. -/
structure Withholds [Unicode] (crypto : Crypto) (body : Source) (want : Bytes) : Prop where
  whole : ∀ sizes, body.bytes ≠ [] →
    (handedOut ((newPayloadVerifier body want body.bytes.length).replies crypto sizes)).length = body.bytes.length →
    hexEncode (crypto.sha256 (handedOut ((newPayloadVerifier body want body.bytes.length).replies crypto sizes))) = toLower want
  ended : ∀ sizes before d,
    (newPayloadVerifier body want body.bytes.length).replies crypto sizes = before ++ [(d, some (.io .eof))] →
    (∀ x ∈ before, x.2 = none) →
    hexEncode (crypto.sha256 (handedOut (before ++ [(d, some (.io .eof))]))) = toLower want
  refused : hexEncode (crypto.sha256 body.bytes) ≠ toLower want → ∀ sizes : Nat → Nat, (∀ k, 0 < sizes k) →
    ∃ k before, (newPayloadVerifier body want body.bytes.length).replies crypto ((List.range (k + 1)).map sizes) =
        before ++ [([], some (.s3 contentSHA256Mismatch))] ∧
      (∀ x ∈ before, x.2 = none) ∧ Short body (handedOut before)

/-- For every body of the declared length, however it is handed out and in whatever pieces it is
    read: all of it, or its end, comes only with the signed hash, and without it a consumer that keeps
    reading is refused before it has the whole. -/
theorem payloadVerifier_withholds [Unicode] (crypto : Crypto) (body : Source) (want : Bytes) : Withholds crypto body want := by
  have hstart : (newPayloadVerifier body want body.bytes.length).At crypto body body.bytes.length [] :=
    newPayloadVerifier_at crypto want (le_refl _)
  refine ⟨fun sizes hne hlen => ?_, fun sizes before d hreplies hbefore => ?_, fun hdiffers sizes hsizes => ?_⟩
  · obtain ⟨v', hconsumed⟩ := (Consumed.intact hstart rfl).replies sizes
    exact hconsumed.hash_of_length hne hlen
  · exact hstart.hash_of_eof hreplies hbefore
  · exact hstart.refused hdiffers hsizes

end S3Gateway.S3gw
