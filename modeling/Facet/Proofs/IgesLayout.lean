import Facet.IgesDocument
import Facet.Proofs.NumberText
import Facet.Proofs.Trimming

namespace Facet

theorem pieces_append {separator : Char} {piece : List Char} (h : separator ∉ piece)
    (rest : List Char) :
    pieces separator (piece ++ separator :: rest) = piece :: pieces separator rest := by
  induction piece with
  | nil => rw [List.nil_append, pieces, if_pos rfl]
  | cons c piece ih =>
    obtain ⟨hc, hpiece⟩ := not_or.mp (mt List.mem_cons.mpr h)
    rw [List.cons_append, pieces, if_neg (Ne.symm hc), ih hpiece]

/-- Behind the last line feed there is one more piece, and it is empty. -/
theorem lines_flatMap_line {texts : List (List Char)} (h : ∀ text ∈ texts, '\n' ∉ text) :
    lines (texts.flatMap line) = texts ++ [[]] := by
  induction texts with
  | nil => rfl
  | cons text texts ih =>
    have hrest := ih fun t ht => h t (List.mem_cons_of_mem text ht)
    rw [List.flatMap_cons, line, List.append_assoc, List.singleton_append, lines,
      pieces_append (h text List.mem_cons_self)]
    exact congrArg (text :: ·) hrest

theorem ofText_name (name : List Char) : IgesLine.ofText ("MODEL ".toList ++ name) = .name name := by
  have hname : "MODEL ".toList.isPrefixOf? ("MODEL ".toList ++ name) = some name :=
    List.isPrefixOf?_eq_some_iff_append_eq.mpr rfl
  simp only [IgesLine.ofText, hname]

theorem ofText_vertex (rest : List Char) :
    IgesLine.ofText ("VERTEX ".toList ++ rest) =
      ((readPoint rest).map fun found => IgesLine.vertex found.1).getD (.malformed .vertex) := by
  have hname : "MODEL ".toList.isPrefixOf? ("VERTEX ".toList ++ rest) = none := rfl
  have hvertex : "VERTEX ".toList.isPrefixOf? ("VERTEX ".toList ++ rest) = some rest :=
    List.isPrefixOf?_eq_some_iff_append_eq.mpr rfl
  simp only [IgesLine.ofText, hname, hvertex]
  cases readPoint rest <;> rfl

theorem ofText_face (rest : List Char) :
    IgesLine.ofText ("FACE ".toList ++ rest) =
      ((readTriangle rest).map fun found => IgesLine.face found.1).getD (.malformed .face) := by
  have hname : "MODEL ".toList.isPrefixOf? ("FACE ".toList ++ rest) = none := rfl
  have hvertex : "VERTEX ".toList.isPrefixOf? ("FACE ".toList ++ rest) = none := rfl
  have hface : "FACE ".toList.isPrefixOf? ("FACE ".toList ++ rest) = some rest :=
    List.isPrefixOf?_eq_some_iff_append_eq.mpr rfl
  simp only [IgesLine.ofText, hname, hvertex, hface]
  cases readTriangle rest <;> rfl

/-- A line that is taken in as `found`, and behind which the reader goes on. -/
structure IgesLine.IsReadFrom (found : IgesLine) (text : List Char) : Prop where
  going : trim text ≠ igesTerminator.toList
  reads : IgesLine.ofText (trim text) = found
  sound : ∀ kind, found ≠ .malformed kind

/-- The first character tells every line that is written from the terminator. -/
theorem IgesLine.IsReadFrom.of_trim {found : IgesLine} {text trimmed : List Char} {c : Char}
    (htrim : trim text = trimmed) (hfirst : trimmed.head? = some c) (hc : c ≠ 'E')
    (hreads : IgesLine.ofText trimmed = found) (hsound : ∀ kind, found ≠ .malformed kind) :
    found.IsReadFrom text where
  going hend := by
    have hterminator : igesTerminator.toList.head? = some 'E' := by decide
    rw [← htrim, hend, hterminator] at hfirst
    exact hc (Option.some.inj hfirst).symm
  reads := htrim ▸ hreads
  sound := hsound

def IgesDraft.put (draft : IgesDraft) : IgesLine → IgesDraft
  | .name name => { draft with name := name }
  | .vertex p => { draft with vertices := p :: draft.vertices }
  | .face t => { draft with triangles := t :: draft.triangles }
  | .malformed _ => draft
  | .other => draft

theorem readIgesLines_cons {found : IgesLine} {text : List Char} (h : found.IsReadFrom text)
    (draft : IgesDraft) (number : Nat) (rest : List (List Char)) :
    readIgesLines draft number (text :: rest) =
      readIgesLines (draft.put found) (number + 1) rest := by
  rw [readIgesLines, if_neg h.going, h.reads]
  cases found with
  | name name => rfl
  | vertex p => rfl
  | face t => rfl
  | malformed kind => exact absurd rfl (h.sound kind)
  | other => rfl

theorem readIgesLines_append {founds : List IgesLine} {texts : List (List Char)}
    (h : List.Forall₂ IgesLine.IsReadFrom founds texts) (draft : IgesDraft) (number : Nat)
    (rest : List (List Char)) :
    readIgesLines draft number (texts ++ rest) =
      readIgesLines (founds.foldl IgesDraft.put draft) (number + texts.length) rest := by
  induction h generalizing draft number with
  | nil => rfl
  | @cons found text founds texts hread _ ih =>
    rw [List.cons_append, readIgesLines_cons hread, ih, List.foldl_cons, List.length_cons,
      Nat.add_right_comm, Nat.add_assoc]

theorem readIgesLines_terminator (draft : IgesDraft) (number : Nat) (rest : List (List Char)) :
    readIgesLines draft number (igesTerminator.toList :: rest) = .ok draft := by
  have hend : trim igesTerminator.toList = igesTerminator.toList := by decide
  rw [readIgesLines, if_pos hend]

theorem foldl_put_vertices (points : List Point) (draft : IgesDraft) :
    (points.map IgesLine.vertex).foldl IgesDraft.put draft =
      { draft with vertices := points.reverse ++ draft.vertices } := by
  induction points generalizing draft with
  | nil => rfl
  | cons p points ih => simp [ih, IgesDraft.put]

theorem foldl_put_faces (triangles : List Triangle) (draft : IgesDraft) :
    (triangles.map IgesLine.face).foldl IgesDraft.put draft =
      { draft with triangles := triangles.reverse ++ draft.triangles } := by
  induction triangles generalizing draft with
  | nil => rfl
  | cons t triangles ih => simp [ih, IgesDraft.put]

end Facet
