import Mathlib.Algebra.GroupWithZero.Nat
import S3Gateway.Go.Bytes

/-! # Buffered reading

`bufio.Reader` with its default buffer over a source that hands out its bytes in
fragments of any size, empty ones included, and then ends with an error.  Whatever the
fragments are, the bytes read so far followed by those still to come are the bytes of the
source. -/

namespace Go

inductive StreamError where
  | eof
  | unexpectedEOF
  | noProgress
  | other (text : Bytes)
deriving DecidableEq

/-- An `io.Reader`: what each call hands out at most, and the error it ends with, which
    may come together with the last bytes. -/
structure Source where
  fragments : List Bytes
  final : StreamError
  finalWithData : Bool

namespace Source

def bytes (s : Source) : Bytes := s.fragments.flatten

/-- A bound on the calls to `Read` until the error comes. -/
def size (s : Source) : Nat := (s.fragments.map fun f => f.length + 1).sum

/-- `Read(p)` with `n = len(p)`. -/
def read (s : Source) (n : Nat) : Bytes × Option StreamError × Source :=
  match s.fragments with
  | [] => ([], some s.final, s)
  | f :: rest =>
    if f.length ≤ n then
      (f, if rest = [] ∧ s.finalWithData then some s.final else none, { s with fragments := rest })
    else (f.take n, none, { s with fragments := f.drop n :: rest })

theorem read_bytes {s s' : Source} {n : Nat} {d : Bytes} {e : Option StreamError}
    (h : s.read n = (d, e, s')) : s.bytes = d ++ s'.bytes := by
  unfold read at h
  unfold bytes
  split at h
  · rename_i hnone
    cases h
    simp [hnone]
  · rename_i f rest hfragments
    split at h
    · cases h
      simp [hfragments]
    · cases h
      simp [hfragments, ← List.append_assoc]

theorem read_error {s s' : Source} {n : Nat} {d : Bytes} {e : StreamError}
    (h : s.read n = (d, some e, s')) : s'.fragments = [] := by
  unfold read at h
  split at h
  · rename_i hnone
    cases h
    exact hnone
  · split at h
    · obtain ⟨-, hfinal, rfl⟩ : _ ∧ _ ∧ _ := by simpa using h
      exact hfinal.1.1
    · cases h

theorem read_length {s s' : Source} {n : Nat} {d : Bytes} {e : Option StreamError}
    (h : s.read n = (d, e, s')) : d.length ≤ n := by
  unfold read at h
  split at h
  · cases h
    exact Nat.zero_le n
  · split at h
    · rename_i hle
      cases h
      exact hle
    · cases h
      exact List.length_take_le _ _

/-- The error a source ends with does not change while it is read, and is the only one. -/
theorem read_final {s s' : Source} {n : Nat} {d : Bytes} {e : Option StreamError}
    (h : s.read n = (d, e, s')) : s'.final = s.final ∧ (e = none ∨ e = some s.final) := by
  unfold read at h
  split at h
  · cases h
    exact ⟨rfl, .inr rfl⟩
  · split at h
    · cases h
      refine ⟨rfl, ?_⟩
      split
      · exact .inr rfl
      · exact .inl rfl
    · cases h
      exact ⟨rfl, .inl rfl⟩

theorem read_size_le {s s' : Source} {n : Nat} {d : Bytes} {e : Option StreamError}
    (h : s.read n = (d, e, s')) : d.length + s'.size ≤ s.size := by
  unfold read at h
  unfold size
  split at h
  · cases h
    simp
  · rename_i f rest hfragments
    rw [hfragments, List.map_cons, List.sum_cons]
    split at h
    · cases h
      dsimp only
      omega
    · cases h
      rw [List.map_cons, List.sum_cons, List.length_take, List.length_drop]
      omega

theorem read_size {s s' : Source} {n : Nat} {d : Bytes} {e : Option StreamError} (hn : n ≠ 0)
    (h : s.read n = (d, e, s')) : d.length + s'.size ≤ s.size ∧ (d = [] → e = none → s'.size < s.size) := by
  refine ⟨read_size_le h, fun hd he => ?_⟩
  unfold read at h
  unfold size
  split at h
  · cases h
    cases he
  · rename_i f rest hfragments
    rw [hfragments, List.map_cons, List.sum_cons]
    split at h
    · cases h
      dsimp only
      omega
    · rename_i hlong
      cases h
      have hlen := congrArg List.length hd
      rw [List.length_take, List.length_nil] at hlen
      omega

end Source

/-- The size of the buffer `bufio.NewReader` makes. -/
def bufferSize : Nat := 4096

/-- `bufio.Reader`: the bytes buffered and not yet read, and the error kept for when
    they are. -/
structure BufReader where
  src : Source
  buf : Bytes
  err : Option StreamError

namespace BufReader

/-- `bufio.NewReader(src)`. -/
def new (src : Source) : BufReader := { src, buf := [], err := none }

/-- `b.fill()`, with the empty reads it still puts up with. -/
def fill : Nat → BufReader → BufReader
  | 0, b => { b with err := some .noProgress }
  | i + 1, b =>
    let (d, e, src) := b.src.read (bufferSize - b.buf.length)
    let b := { b with src, buf := b.buf ++ d }
    if e.isSome then { b with err := e }
    else if d ≠ [] then b
    else fill i b

/-- `b.Read(p)` with `n = len(p)`; reporting the kept error takes it out. -/
def read (b : BufReader) (n : Nat) : Bytes × Option StreamError × BufReader :=
  if n = 0 then
    if b.buf ≠ [] then ([], none, b) else ([], b.err, { b with err := none })
  else if b.buf ≠ [] then (b.buf.take n, none, { b with buf := b.buf.drop n })
  else if b.err.isSome then ([], b.err, { b with err := none })
  else if bufferSize ≤ n then
    -- a large read goes past the buffer
    let (d, e, src) := b.src.read n
    (d, e, { b with src })
  else
    let (d, e, src) := b.src.read bufferSize
    if d = [] then ([], e, { b with src })
    else (d.take n, none, { src, buf := d.drop n, err := e })

/-- `b.ReadByte()`: the loop fills the buffer at most once, since filling leaves a byte or
    an error. -/
def readByte (b : BufReader) : Except StreamError UInt8 × BufReader :=
  let b := if b.buf = [] ∧ b.err = none then fill 100 b else b
  match b.buf with
  | c :: buf => (.ok c, { b with buf })
  | [] => (.error (b.err.getD .noProgress), { b with err := none })

/-- The loop of `io.ReadFull` for `n` bytes, of which `got` are there. -/
def readFullLoop (n : Nat) : Nat → Bytes → BufReader → Bytes × Option StreamError × BufReader
  | 0, got, b => (got, some .noProgress, b)
  | fuel + 1, got, b =>
    let (d, e, b) := b.read (n - got.length)
    let got := got ++ d
    if n ≤ got.length then (got, none, b)
    else
      match e with
      | none => readFullLoop n fuel got b
      | some e => (got, some (if e = .eof ∧ got ≠ [] then .unexpectedEOF else e), b)

def size (b : BufReader) : Nat := b.buf.length + b.src.size

/-- `io.ReadFull(b, p)` with `n = len(p)`, for a non-empty `p`. -/
def readFull (b : BufReader) (n : Nat) : Bytes × Option StreamError × BufReader :=
  readFullLoop n (b.size + 1) [] b

/-! ## What is left of the stream -/

def rest (b : BufReader) : Bytes := b.buf ++ b.src.bytes

/-- The end of the stream is only reported once nothing is left behind it. -/
def EndsLast (b : BufReader) : Prop := b.err = some .eof → b.src.fragments = []

theorem endsLast_of_err_none {b : BufReader} (h : b.err = none) : b.EndsLast := by
  intro herr
  rw [h] at herr
  cases herr

theorem fill_rest (i : Nat) (b : BufReader) : (fill i b).rest = b.rest := by
  induction i generalizing b with
  | zero => rfl
  | succ i ih =>
    rcases hread : b.src.read (bufferSize - b.buf.length) with ⟨d, e, src⟩
    have hbytes := Source.read_bytes hread
    have hrest : ∀ err, rest { src, buf := b.buf ++ d, err } = b.rest := by
      intro err
      simp only [rest, hbytes, List.append_assoc]
    simp only [fill, hread]
    split
    · exact hrest e
    · split
      · exact hrest b.err
      · rw [ih]
        exact hrest b.err

theorem fill_endsLast (i : Nat) {b : BufReader} (h : b.err = none) : (fill i b).EndsLast := by
  induction i generalizing b with
  | zero => intro herr; cases herr
  | succ i ih =>
    rcases hread : b.src.read (bufferSize - b.buf.length) with ⟨d, e, src⟩
    simp only [fill, hread]
    split
    · rename_i hsome
      obtain ⟨e, rfl⟩ := Option.isSome_iff_exists.mp hsome
      intro _
      exact Source.read_error hread
    · split
      · exact endsLast_of_err_none h
      · exact ih h

/-- What a call to `Read` can do. -/
inductive ReadStep (b : BufReader) (n : Nat) : Bytes → Option StreamError → BufReader → Prop
  | buffered {d buf : Bytes} (hbuf : b.buf = d ++ buf) (hd : n ≠ 0 → d ≠ []) (hlen : d.length ≤ n) :
    ReadStep b n d none { b with buf }
  | reported (hbuf : b.buf = []) (herr : n = 0 ∨ b.err.isSome = true) :
    ReadStep b n [] b.err { b with err := none }
  | fetched {m : Nat} {d buf : Bytes} {fetchErr e err : Option StreamError} {src : Source}
    (hbuf : b.buf = []) (hm : m ≠ 0) (hread : b.src.read m = (d ++ buf, fetchErr, src))
    (herr : e = fetchErr ∧ err = none ∧ buf = [] ∨ e = none ∧ err = fetchErr ∧ d ≠ [])
    (hlen : d.length ≤ n) :
    ReadStep b n d e { src, buf, err }

theorem readStep (b : BufReader) (n : Nat) :
    ReadStep b n (b.read n).1 (b.read n).2.1 (b.read n).2.2 := by
  -- a read of nothing, one from the buffer, one of what was reported, and one from the source
  unfold read
  split
  · rename_i hn
    split
    · exact .buffered rfl (absurd hn) (Nat.zero_le n)
    · rename_i hempty
      exact .reported (by simpa using hempty) (.inl hn)
  · rename_i hn
    split
    · rename_i hbuf
      refine .buffered (List.take_append_drop n b.buf).symm (fun _ => ?_) (List.length_take_le _ _)
      simpa [hn] using hbuf
    · rename_i hempty
      obtain hempty : b.buf = [] := by simpa using hempty
      split
      · rename_i hsome
        exact .reported hempty (.inr hsome)
      · rename_i hnone
        obtain hnone : b.err = none := by simpa using hnone
        split
        · rcases hread : b.src.read n with ⟨d, e, src⟩
          have hlen := Source.read_length hread
          rw [hempty, hnone]
          exact .fetched hempty hn (by rw [hread, List.append_nil]) (.inl ⟨rfl, rfl, rfl⟩) hlen
        · rcases hread : b.src.read bufferSize with ⟨d, e, src⟩
          dsimp only
          split
          · rename_i hd
            rw [hempty, hnone]
            exact .fetched (m := bufferSize) hempty (by decide) (by rw [hread, hd]; rfl) (.inl ⟨rfl, rfl, rfl⟩)
              (Nat.zero_le n)
          · rename_i hd
            refine .fetched (m := bufferSize) hempty (by decide) ?_ (.inr ⟨rfl, rfl, ?_⟩)
              (List.length_take_le _ _)
            · rw [hread, List.take_append_drop]
            · simpa [hn] using hd

section Read

variable {b b' : BufReader} {n : Nat} {d : Bytes} {e : Option StreamError}

theorem ReadStep.rest_eq (h : ReadStep b n d e b') : b.rest = d ++ b'.rest := by
  cases h with
  | buffered hbuf => simp [rest, hbuf]
  | reported hbuf => rfl
  | fetched hbuf hm hread => simp [rest, hbuf, Source.read_bytes hread]

theorem ReadStep.endsLast (h : ReadStep b n d e b') (hb : b.EndsLast) : b'.EndsLast := by
  cases h with
  | buffered => exact hb
  | reported => exact endsLast_of_err_none rfl
  | fetched hbuf hm hread herr =>
    rcases herr with ⟨-, rfl, -⟩ | ⟨-, rfl, -⟩
    · exact endsLast_of_err_none rfl
    · intro heof
      dsimp only at heof
      rw [heof] at hread
      exact Source.read_error hread

theorem ReadStep.size_add_le (h : ReadStep b n d e b') : d.length + b'.size ≤ b.size := by
  unfold size
  cases h with
  | buffered hbuf =>
    simp only [hbuf, List.length_append]
    omega
  | reported => simp
  | fetched hbuf hm hread =>
    have hsize := Source.read_size_le hread
    rw [List.length_append] at hsize
    rw [hbuf, List.length_nil]
    dsimp only
    omega

theorem ReadStep.length_le (h : ReadStep b n d e b') : d.length ≤ n := by
  cases h with
  | buffered _ _ hlen => exact hlen
  | reported => exact Nat.zero_le n
  | fetched _ _ _ _ hlen => exact hlen

theorem ReadStep.size_lt (h : ReadStep b n d e b') (he : e = none) (hn : n ≠ 0) :
    b'.size < b.size := by
  unfold size
  cases h with
  | buffered hbuf hd =>
    have hpos := List.length_pos_iff.mpr (hd hn)
    simp only [hbuf, List.length_append]
    omega
  | reported hbuf herr =>
    rw [he] at herr
    exact absurd herr (by simp [hn])
  | fetched hbuf hm hread herr =>
    obtain ⟨hle, hlt⟩ := Source.read_size hm hread
    rw [List.length_append] at hle
    rw [hbuf, List.length_nil]
    dsimp only
    -- a read of nothing consumes an empty fragment of the source
    rcases herr with ⟨rfl, -, rfl⟩ | ⟨-, -, hd⟩
    · by_cases hd : d = []
      · have hless := hlt (by simp [hd]) he
        simp only [List.length_nil]
        omega
      · have hpos := List.length_pos_iff.mpr hd
        simp only [List.length_nil] at hle ⊢
        omega
    · have hpos := List.length_pos_iff.mpr hd
      omega

end Read

theorem fill_size_le (i : Nat) (b : BufReader) : (fill i b).size ≤ b.size := by
  induction i generalizing b with
  | zero => exact Nat.le_refl _
  | succ i ih =>
    rcases hread : b.src.read (bufferSize - b.buf.length) with ⟨d, e, src⟩
    have hsize := Source.read_size_le hread
    have hmoved : ∀ err, size { src, buf := b.buf ++ d, err } ≤ b.size := by
      intro err
      simp only [size, List.length_append]
      omega
    simp only [fill, hread]
    split
    · exact hmoved e
    · split
      · exact hmoved b.err
      · exact (ih _).trans (hmoved b.err)

theorem readByte_size_le (b : BufReader) : b.readByte.2.size ≤ b.size := by
  have hfilled : (if b.buf = [] ∧ b.err = none then fill 100 b else b).size ≤ b.size := by
    split
    · exact fill_size_le 100 b
    · exact Nat.le_refl _
  unfold readByte
  dsimp only
  split
  · rename_i c buf hbuf
    rw [size, hbuf, List.length_cons] at hfilled
    simp only [size] at hfilled ⊢
    omega
  · exact hfilled

theorem readFullLoop_size_le (n fuel : Nat) (got : Bytes) (b : BufReader) :
    (readFullLoop n fuel got b).2.2.size ≤ b.size := by
  induction fuel generalizing got b with
  | zero => exact Nat.le_refl _
  | succ fuel ih =>
    have hstep := readStep b (n - got.length)
    rcases hread : b.read (n - got.length) with ⟨d, e, b'⟩
    rw [hread] at hstep
    have hsize : b'.size ≤ b.size := by
      have := hstep.size_add_le
      dsimp only at this
      omega
    simp only [readFullLoop, hread]
    split
    · exact hsize
    · cases e with
      | none => exact (ih _ b').trans hsize
      | some e => exact hsize

section Byte

variable {b b' : BufReader}

theorem readByte_eq (hb : b.EndsLast) : ∃ filled : BufReader, filled.rest = b.rest ∧ filled.EndsLast ∧
    b.readByte = match filled.buf with
      | c :: buf => (.ok c, { filled with buf })
      | [] => (.error (filled.err.getD .noProgress), { filled with err := none }) := by
  by_cases hfill : b.buf = [] ∧ b.err = none
  · refine ⟨fill 100 b, fill_rest 100 b, fill_endsLast 100 hfill.2, ?_⟩
    unfold readByte
    rw [if_pos hfill]
  · refine ⟨b, rfl, hb, ?_⟩
    unfold readByte
    rw [if_neg hfill]

theorem readByte_ok {c : UInt8} (h : b.readByte = (.ok c, b')) (hb : b.EndsLast) :
    b.rest = c :: b'.rest ∧ b'.EndsLast := by
  obtain ⟨filled, hrest, hends, hread⟩ := readByte_eq hb
  rw [hread] at h
  cases hbuf : filled.buf with
  | nil =>
    rw [hbuf] at h
    cases h
  | cons c' buf =>
    rw [hbuf] at h
    cases h
    refine ⟨?_, hends⟩
    rw [← hrest, rest, hbuf]
    rfl

theorem readByte_error {e : StreamError} (h : b.readByte = (.error e, b')) (hb : b.EndsLast) :
    b'.rest = b.rest ∧ b'.EndsLast ∧ (e = .eof → b.rest = []) := by
  obtain ⟨filled, hrest, hends, hread⟩ := readByte_eq hb
  rw [hread] at h
  cases hbuf : filled.buf with
  | nil =>
    rw [hbuf] at h
    cases h
    refine ⟨?_, endsLast_of_err_none rfl, fun heof => ?_⟩
    · rw [← hrest, rest, rest, hbuf]
    have herr : filled.err = some .eof := by
      cases herr : filled.err with
      | none =>
        rw [herr] at heof
        cases heof
      | some e =>
        rw [herr] at heof
        exact congrArg some heof
    rw [← hrest, rest, hbuf, Source.bytes, hends herr]
    rfl
  | cons c' buf =>
    rw [hbuf] at h
    cases h

end Byte

section Full

variable {n : Nat}

theorem readFullLoop_ok {fuel : Nat} {b b' : BufReader} {got all : Bytes} (hgot : got.length ≤ n)
    (hb : b.EndsLast) (h : readFullLoop n fuel got b = (all, none, b')) :
    ∃ d, all = got ++ d ∧ all.length = n ∧ b.rest = d ++ b'.rest ∧ b'.EndsLast := by
  induction fuel generalizing b got with
  | zero => cases h
  | succ fuel ih =>
    have hstep := readStep b (n - got.length)
    rcases hread : b.read (n - got.length) with ⟨d, e, b₁⟩
    rw [hread] at hstep
    simp only [readFullLoop, hread] at h
    have hlen : d.length ≤ n - got.length := hstep.length_le
    split at h
    · rename_i hfull
      cases h
      rw [List.length_append] at hfull
      exact ⟨d, rfl, by rw [List.length_append]; omega, hstep.rest_eq, hstep.endsLast hb⟩
    · rename_i hshort
      rw [List.length_append] at hshort
      cases e with
      | some e => cases h
      | none =>
        obtain ⟨d', hall, hn, hrest, hends⟩ :=
          ih (by rw [List.length_append]; omega) (hstep.endsLast hb) h
        refine ⟨d ++ d', by rw [hall, List.append_assoc], hn, ?_, hends⟩
        rw [hstep.rest_eq, hrest, List.append_assoc]

theorem readFullLoop_enough {fuel : Nat} {b : BufReader} {got : Bytes} (hgot : got.length < n)
    (hfuel : b.size < fuel) : readFullLoop n (fuel + 1) got b = readFullLoop n fuel got b := by
  induction fuel generalizing b got with
  | zero => cases hfuel
  | succ fuel ih =>
    have hstep := readStep b (n - got.length)
    rcases hread : b.read (n - got.length) with ⟨d, e, b₁⟩
    rw [hread] at hstep
    rw [readFullLoop, readFullLoop, hread]
    dsimp only
    split
    · rfl
    · rename_i hshort
      cases e with
      | some e => rfl
      | none =>
        have hless := hstep.size_lt rfl (by omega)
        exact ih (by omega) (by dsimp only at hless; omega)

theorem readFullLoop_eq {fuel : Nat} {b : BufReader} (hn : 0 < n) (hfuel : b.size < fuel) :
    readFullLoop n fuel [] b = b.readFull n := by
  induction fuel with
  | zero => cases hfuel
  | succ fuel ih =>
    by_cases hlast : b.size = fuel
    · rw [readFull, hlast]
    · rw [readFullLoop_enough hn (by omega), ih (by omega)]

theorem readFull_ok {b b' : BufReader} {got : Bytes} (hb : b.EndsLast)
    (h : b.readFull n = (got, none, b')) :
    got.length = n ∧ b.rest = got ++ b'.rest ∧ b'.EndsLast := by
  obtain ⟨d, rfl, hlen, hrest, hends⟩ := readFullLoop_ok (Nat.zero_le n) hb h
  exact ⟨hlen, hrest, hends⟩

end Full

end BufReader

/-! ## Streams that keep coming -/

namespace Source

/-- While there are bytes to come, fewer than 100 calls in a row hand out none, which is what
    `bufio` puts up with. -/
def Progresses (s : Source) : Prop :=
  ∀ back, back <:+ s.fragments → back.flatten ≠ [] → (back.takeWhile (· = [])).length < 100

theorem read_progresses {s s' : Source} {n : Nat} {d : Bytes} {e : Option StreamError}
    (h : s.read n = (d, e, s')) (hs : s.Progresses) : s'.Progresses := by
  unfold read at h
  split at h
  · cases h
    exact hs
  · rename_i f rest hfragments
    unfold Progresses at hs
    rw [hfragments] at hs
    split at h
    · cases h
      intro back hback hne
      exact hs back (hback.trans (List.suffix_cons _ _)) hne
    · rename_i hlong
      cases h
      intro back hback hne
      rcases List.suffix_cons_iff.mp hback with rfl | hback
      · -- what is left of a fragment is not empty
        have hdrop : f.drop n ≠ [] := by
          intro hdrop
          exact hlong (List.drop_eq_nil_iff.mp hdrop)
        simp [hdrop]
      · exact hs back (hback.trans (List.suffix_cons f rest)) hne

theorem read_nothing {s s' : Source} {n : Nat} (hn : n ≠ 0) (h : s.read n = ([], none, s')) :
    s.fragments = [] :: s'.fragments := by
  unfold read at h
  split at h
  · cases h
  · rename_i f rest hfragments
    split at h
    · obtain ⟨hf, -, hs'⟩ : f = [] ∧ _ ∧ _ := by simpa using h
      rw [hfragments, hf, ← hs']
    · rename_i hlong
      obtain ⟨hf, -⟩ : (n = 0 ∨ f = []) ∧ _ := by simpa using h
      rcases hf with hf | hf
      · exact absurd hf hn
      · exact absurd (by simp [hf]) hlong

end Source

namespace BufReader

/-- The source keeps coming, and an error is only kept behind all of its bytes. -/
structure Healthy (b : BufReader) : Prop where
  progresses : b.src.Progresses
  ended : b.err.isSome = true → b.src.fragments = []

theorem new_healthy {src : Source} (h : src.Progresses) : (new src).Healthy :=
  ⟨h, fun herr => by cases herr⟩

section Progress

variable {b b' : BufReader} {n : Nat} {d t : Bytes} {e : Option StreamError}

theorem ReadStep.healthy (h : ReadStep b n d e b') (hb : b.Healthy) : b'.Healthy := by
  cases h with
  | buffered => exact ⟨hb.progresses, hb.ended⟩
  | reported => exact ⟨hb.progresses, fun herr => by cases herr⟩
  | fetched hbuf hm hread herr =>
    refine ⟨Source.read_progresses hread hb.progresses, fun hsome => ?_⟩
    rcases herr with ⟨-, rfl, -⟩ | ⟨-, rfl, -⟩
    · cases hsome
    · obtain ⟨e', rfl⟩ := Option.isSome_iff_exists.mp hsome
      exact Source.read_error hread

theorem ReadStep.size_le (h : ReadStep b n d e b') : b'.size ≤ b.size := by
  have := h.size_add_le
  omega

theorem ReadStep.eq_rest {err : StreamError} (h : ReadStep b n d (some err) b') (hb : b.Healthy)
    (hn : n ≠ 0) : d = b.rest := by
  generalize he : some err = e at h
  cases h with
  | buffered => cases he
  | reported hbuf herr =>
    have hsome : b.err.isSome = true := herr.resolve_left hn
    rw [rest, hbuf, Source.bytes, hb.ended hsome]
    rfl
  | fetched hbuf hm hread herr =>
    rcases herr with ⟨rfl, -, rfl⟩ | ⟨rfl, -, -⟩
    · rw [← he] at hread
      rw [rest, hbuf, Source.read_bytes hread, Source.bytes, Source.read_error hread]
      simp
    · cases he

theorem ReadStep.none_of_lt (h : ReadStep b n d e b') (hb : b.Healthy) (hn : n ≠ 0)
    (hlt : n < b.rest.length) : e = none := by
  cases e with
  | none => rfl
  | some err =>
    have hlen := h.length_le
    rw [h.eq_rest hb hn] at hlen
    omega

/-- Filling the buffer finds a byte when fewer empty reads come first than it allows. -/
theorem fill_progress {i : Nat} (hbuf : b.buf = []) (herr : b.err = none)
    (hsrc : b.src.Progresses) (hbytes : b.src.bytes ≠ [])
    (hi : (b.src.fragments.takeWhile (· = [])).length < i) :
    (fill i b).buf ≠ [] ∧ (fill i b).Healthy ∧ (fill i b).size ≤ b.size := by
  induction i generalizing b with
  | zero => cases hi
  | succ i ih =>
    rcases hread : b.src.read (bufferSize - ([] : Bytes).length) with ⟨d, e, src⟩
    have hn : bufferSize - ([] : Bytes).length ≠ 0 := by decide
    have hprogresses := Source.read_progresses hread hsrc
    have hsize := (Source.read_size hn hread).1
    simp only [fill, hbuf, hread, List.nil_append]
    by_cases hd : d = []
    · subst hd
      cases e with
      | some err =>
        -- an error without data is the end of the source, which still has bytes
        refine absurd ?_ hbytes
        rw [Source.read_bytes hread, Source.bytes, Source.read_error hread]
        rfl
      | none =>
        simp only [Option.isSome_none, Bool.false_eq_true, if_false, ne_eq, not_true]
        have hfragments := Source.read_nothing hn hread
        rw [hfragments] at hi
        have hrest : src.bytes ≠ [] := by
          rw [Source.read_bytes hread] at hbytes
          exact hbytes
        obtain ⟨hne, hhealthy, hless⟩ :=
          ih (b := { src, buf := [], err := b.err }) rfl herr hprogresses hrest (by simpa using hi)
        refine ⟨hne, hhealthy, ?_⟩
        simp only [size, List.length_nil, hbuf] at hless hsize ⊢
        omega
    · have hless : d.length + src.size ≤ b.size := by
        simp only [size, hbuf, List.length_nil]
        omega
      split
      · rename_i hsome
        obtain ⟨err, rfl⟩ := Option.isSome_iff_exists.mp hsome
        exact ⟨hd, ⟨hprogresses, fun _ => Source.read_error hread⟩, hless⟩
      · refine ⟨hd, ⟨hprogresses, fun hsome => ?_⟩, hless⟩
        simp [herr] at hsome

theorem readByte_progress {c : UInt8} (hb : b.Healthy) (hrest : b.rest = c :: t) :
    ∃ b', b.readByte = (.ok c, b') ∧ b'.rest = t ∧ b'.Healthy ∧ b'.size ≤ b.size := by
  -- with the buffer empty, filling it brings a byte before its hundred tries are over
  obtain ⟨filled, hread, hne, hsame, hhealthy, hsize⟩ : ∃ filled : BufReader,
      filled = (if b.buf = [] ∧ b.err = none then fill 100 b else b) ∧ filled.buf ≠ [] ∧
        filled.rest = b.rest ∧ filled.Healthy ∧ filled.size ≤ b.size := by
    by_cases hbuf : b.buf = []
    · have hbytes : b.src.bytes ≠ [] := by
        intro hbytes
        rw [rest, hbuf, hbytes] at hrest
        cases hrest
      have herr : b.err = none := by
        cases herr : b.err with
        | none => rfl
        | some err =>
          refine absurd ?_ hbytes
          rw [Source.bytes, hb.ended (by rw [herr]; rfl)]
          rfl
      obtain ⟨hne, hhealthy, hsize⟩ := fill_progress hbuf herr hb.progresses hbytes
        (hb.progresses _ (List.suffix_refl _) hbytes)
      exact ⟨fill 100 b, by rw [if_pos ⟨hbuf, herr⟩], hne, fill_rest 100 b, hhealthy, hsize⟩
    · exact ⟨b, by rw [if_neg (fun h => hbuf h.1)], hbuf, rfl, hb, Nat.le_refl _⟩
  obtain ⟨c', buf, hbuf⟩ := List.exists_cons_of_ne_nil hne
  rw [← hsame, rest, hbuf, List.cons_append, List.cons.injEq] at hrest
  obtain ⟨rfl, ht⟩ := hrest
  refine ⟨{ filled with buf }, ?_, ht, ⟨hhealthy.progresses, hhealthy.ended⟩, ?_⟩
  · rw [readByte, ← hread]
    simp only [hbuf]
  · simp only [size, hbuf, List.length_cons] at hsize ⊢
    omega

theorem readFullLoop_progress {fuel : Nat} {got : Bytes} (hb : b.Healthy) (hfuel : b.size < fuel)
    (hrest : b.rest = d ++ t) (hlen : got.length + d.length = n) (hd : d ≠ []) :
    ∃ b', readFullLoop n fuel got b = (got ++ d, none, b') ∧ b'.rest = t ∧ b'.Healthy ∧
      b'.size ≤ b.size := by
  induction fuel generalizing b got d with
  | zero => cases hfuel
  | succ fuel ih =>
    have hpos := List.length_pos_iff.mpr hd
    have hstep := readStep b (n - got.length)
    rcases hread : b.read (n - got.length) with ⟨d₁, e, b₁⟩
    rw [hread] at hstep
    dsimp only at hstep
    have hshort := hstep.length_le
    -- what was read is the front of what is wanted
    obtain ⟨d₂, rfl⟩ : ∃ d₂, d = d₁ ++ d₂ := by
      have heq := hstep.rest_eq.symm.trans hrest
      exact (List.prefix_of_prefix_length_le (List.prefix_append d₁ _)
        (heq ▸ List.prefix_append d t) (by omega)).imp fun _ h => h.symm
    rw [List.append_assoc] at hrest
    have hrest₁ : b₁.rest = d₂ ++ t := List.append_cancel_left (hstep.rest_eq.symm.trans hrest)
    rw [List.length_append] at hlen
    simp only [readFullLoop, hread]
    by_cases hdone : d₂ = []
    · subst hdone
      rw [if_pos (by rw [List.length_append]; simpa using Nat.le_of_eq hlen.symm)]
      exact ⟨b₁, by rw [List.append_nil], hrest₁, hstep.healthy hb, hstep.size_le⟩
    · have hmore := List.length_pos_iff.mpr hdone
      rw [if_neg (by rw [List.length_append]; omega)]
      have hnone : e = none := by
        cases e with
        | none => rfl
        | some err =>
          have hall := congrArg List.length (hstep.eq_rest hb (by omega))
          rw [hrest, List.length_append, List.length_append] at hall
          omega
      subst hnone
      have hless := hstep.size_lt rfl (by omega)
      have hlen₁ : (got ++ d₁).length + d₂.length = n := by
        rw [List.length_append]
        omega
      obtain ⟨b', hloop, hrest', hhealthy, hsize⟩ :=
        ih (hstep.healthy hb) (by omega) hrest₁ hlen₁ hdone
      exact ⟨b', by rw [hloop, List.append_assoc], hrest', hhealthy, by omega⟩

theorem readFull_progress (hb : b.Healthy) (hrest : b.rest = d ++ t) (hd : d ≠ []) :
    ∃ b', b.readFull d.length = (d, none, b') ∧ b'.rest = t ∧ b'.Healthy ∧ b'.size ≤ b.size :=
  readFullLoop_progress hb (Nat.lt_succ_self _) hrest (Nat.zero_add _) hd

end Progress

end BufReader

end Go
