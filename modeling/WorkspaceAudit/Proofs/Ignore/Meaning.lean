import WorkspaceAudit.Ignore.Glob
import WorkspaceAudit.Proofs.Pattern.Hits

/-!
# What a glob means

- `Generates ps w`: the row of pieces `ps` generates the text `w`.
- `Glob.Describes g s`: a text that the glob generates stands in `s` where the glob may start, and
  nothing follows it but what lies below.
- `covers_iff_describes`: a glob covers exactly the paths that it describes.
-/

namespace WorkspaceAudit.Glob

open Pattern

/-- The row of pieces generates the text. -/
inductive Generates : List Piece → List Char → Prop where
  | nil : Generates [] []
  | anyText {ps : List Piece} {w v : List Char} (inLine : '\n' ∉ w) (more : Generates ps v) :
      Generates (.anyText :: ps) (w ++ v)
  | anyName {ps : List Piece} {w v : List Char} (inName : '/' ∉ w) (more : Generates ps v) :
      Generates (.anyName :: ps) (w ++ v)
  | anyChar {ps : List Piece} {c : Char} {v : List Char} (inName : c ≠ '/')
      (more : Generates ps v) : Generates (.anyChar :: ps) (c :: v)
  | char {ps : List Piece} {c : Char} {v : List Char} (more : Generates ps v) :
      Generates (.char c :: ps) (c :: v)

/-- Nothing, or a slash and text in the line. -/
def Below (w : List Char) : Prop := w = [] ∨ ∃ t, w = '/' :: t ∧ '\n' ∉ t

/-- A text that the glob generates stands at the start of `s` or, if the glob is not anchored,
after a slash of it, and is followed by nothing or by what lies below it, up to the end of `s` or
a last line feed. -/
def Describes (g : Glob) (s : List Char) : Prop :=
  ∃ front body below last, s = front ++ (body ++ (below ++ last)) ∧ Generates g.pieces body ∧
    (front = [] ∨ g.anchored = false ∧ ∃ names, front = names ++ ['/']) ∧ Below below ∧
    (last = [] ∨ last = ['\n'])

section Spans

variable {pre w post : List Char}

theorem spans_withinLine_iff : withinLine.Spans pre w post ↔ '\n' ∉ w := by
  simp [withinLine, anyMany, Spans, CharSet.inLine, CharSet.has, List.forall_mem_ne']

theorem has_exceptSlash_iff {c : Char} : (CharSet.except "/").has c = true ↔ c ≠ '/' := by
  simp [CharSet.except, CharSet.of, CharSet.has]

/-- The pattern of a row of pieces spans exactly the texts that the row generates. -/
theorem spans_pieces_iff {ps : List Piece} :
    (chain (ps.map Piece.pattern)).Spans pre w post ↔ Generates ps w := by
  induction ps generalizing pre w with
  | nil => exact ⟨fun h => by obtain rfl : w = [] := h; exact .nil, fun h => by cases h; rfl⟩
  | cons p ps ih =>
    simp only [List.map_cons, spans_chain_cons, ih]
    cases p with
    | anyText =>
      simp only [Piece.pattern, spans_withinLine_iff]
      constructor
      · rintro ⟨u, v, rfl, hu, hv⟩; exact .anyText hu hv
      · rintro (_ | ⟨hu, hv⟩); exact ⟨_, _, rfl, hu, hv⟩
    | anyName =>
      have hany : ∀ u v, (Piece.pattern .anyName).Spans pre u v ↔ '/' ∉ u := by
        intro u v
        simp [Piece.pattern, anyMany, Spans, has_exceptSlash_iff, List.forall_mem_ne']
      simp only [hany]
      constructor
      · rintro ⟨u, v, rfl, hu, hv⟩; exact .anyName hu hv
      · rintro (_ | _ | ⟨hu, hv⟩); exact ⟨_, _, rfl, hu, hv⟩
    | anyChar =>
      simp only [Piece.pattern, Spans, has_exceptSlash_iff]
      constructor
      · rintro ⟨u, v, rfl, ⟨c, hc, rfl⟩, hv⟩; exact .anyChar hc hv
      · rintro (_ | _ | _ | ⟨hc, hv⟩); exact ⟨[_], _, rfl, ⟨_, hc, rfl⟩, hv⟩
    | char c =>
      simp only [Piece.pattern, Spans, CharSet.has, List.contains_iff_mem, List.mem_singleton]
      constructor
      · rintro ⟨u, v, rfl, ⟨_, rfl, rfl⟩, hv⟩; exact .char hv
      · rintro (_ | _ | _ | _ | hv); exact ⟨[c], _, rfl, ⟨c, rfl, rfl⟩, hv⟩

theorem spans_front_iff {g : Glob} : g.front.Spans pre w post ↔
    w = [] ∧ pre = [] ∨ g.anchored = false ∧ w = ['/'] := by
  have hslash : ("/" : String).toList = ['/'] := rfl
  cases h : g.anchored <;> simp [front, h, Spans, spans_lit_iff, hslash]

theorem spans_tail_iff : tail.Spans pre w post ↔ Below w ∧ (post = [] ∨ post = ['\n']) := by
  have hslash : ("/" : String).toList = ['/'] := rfl
  simp only [tail, Spans, spans_lit_iff, spans_withinLine_iff, hslash, Below]
  constructor
  · rintro ⟨u, v, rfl, hu, rfl, hpost⟩
    refine ⟨?_, by simpa using hpost⟩
    rcases hu with ⟨_, t, rfl, rfl, ht⟩ | rfl
    · exact .inr ⟨t, by simp, ht⟩
    · exact .inl rfl
  · rintro ⟨hw, hpost⟩
    refine ⟨w, [], by simp, ?_, rfl, by simpa using hpost⟩
    rcases hw with rfl | ⟨t, rfl, ht⟩
    · exact .inr rfl
    · exact .inl ⟨['/'], t, rfl, rfl, ht⟩

/-- The three parts of the text that the pattern of a glob spans. -/
theorem spans_pattern_iff {g : Glob} : g.pattern.Spans pre w post ↔
    ∃ start body below, w = start ++ (body ++ below) ∧
      (start = [] ∧ pre = [] ∨ g.anchored = false ∧ start = ['/']) ∧ Generates g.pieces body ∧
      Below below ∧ (post = [] ∨ post = ['\n']) := by
  simp only [pattern, Spans, spans_front_iff, spans_pieces_iff, spans_tail_iff]
  constructor
  · rintro ⟨start, _, rfl, hstart, body, below, rfl, hbody, hbelow⟩
    exact ⟨start, body, below, rfl, hstart, hbody, hbelow⟩
  · rintro ⟨start, body, below, rfl, hstart, hbody, hbelow⟩
    exact ⟨start, _, rfl, hstart, body, below, rfl, hbody, hbelow⟩

end Spans

/-- **A glob covers exactly the paths that it describes.** -/
theorem covers_iff_describes {g : Glob} {s : List Char} : g.covers s = true ↔ g.Describes s := by
  simp only [covers, found_iff, spans_pattern_iff, Describes]
  constructor
  · rintro ⟨pre, w, last, rfl, start, body, below, rfl, hstart, hbody, hbelow, hlast⟩
    refine ⟨pre ++ start, body, below, last, by simp, hbody, ?_, hbelow, hlast⟩
    rcases hstart with ⟨rfl, rfl⟩ | ⟨hg, rfl⟩
    · exact .inl rfl
    · exact .inr ⟨hg, pre, rfl⟩
  · rintro ⟨front, body, below, last, rfl, hbody, hfront, hbelow, hlast⟩
    rcases hfront with rfl | ⟨hg, names, rfl⟩
    · exact ⟨[], _, last, by simp, [], body, below, rfl, .inl ⟨rfl, rfl⟩, hbody, hbelow, hlast⟩
    · exact ⟨names, _, last, by simp, ['/'], body, below, rfl, .inr ⟨hg, rfl⟩, hbody, hbelow,
        hlast⟩

end WorkspaceAudit.Glob
