import Facet.Proofs.IgesLayout

namespace Facet

def nameLine (name : List Char) : List Char :=
  "MODEL ".toList ++ name

def vertexLine (p : Point) : List Char :=
  "VERTEX ".toList ++ pointText p

def faceLine (t : Triangle) : List Char :=
  "FACE ".toList ++ triangleText t

/-- What the line with a name is taken in as. Blanks behind the keyword do not make a name. -/
def IgesLine.ofName (name : List Char) : IgesLine :=
  if trimEnd name = [] then other else .name (trimEnd name)

/-- The lines between the header and the terminator. -/
def Model.igesLines (m : Model) : List (List Char) :=
  nameLine m.name.toList ::
    (m.mesh.vertices.toList.map vertexLine ++ m.mesh.triangles.toList.map faceLine)

theorem readTriple_words {α : Type} {read : List Char → Option α} {a b c : List Char} {x y z : α}
    (ha : IsWord a) (hb : IsWord b) (hc : IsWord c) (hx : read a = some x) (hy : read b = some y)
    (hz : read c = some z) :
    readTriple read (a ++ ' ' :: b ++ ' ' :: c) = some ((x, y, z), []) := by
  have hgap : IsBlanks [' '] := by decide
  have hspace : ∀ rest : List Char, EndsWord (' ' :: rest) := endsWord_cons (by decide)
  have hfirst : readNext read (a ++ (' ' :: b ++ ' ' :: c)) = some (x, ' ' :: b ++ ' ' :: c) :=
    readNext_word_append ha hx (hspace _)
  have hsecond : readNext read (' ' :: b ++ ' ' :: c) = some (y, ' ' :: c) :=
    (readNext_blanks_append read hgap (b ++ ' ' :: c)).trans
      (readNext_word_append hb hy (hspace c))
  have hthird : readNext read (' ' :: c) = some (z, []) := by
    have hlast := readNext_word_append hc hz (show EndsWord [] by decide)
    rw [List.append_nil] at hlast
    exact (readNext_blanks_append read hgap c).trans hlast
  rw [readTriple, List.append_assoc, hfirst]
  simp only [Option.bind_eq_bind, Option.bind_some, hsecond, hthird]
  rfl

theorem readPoint_pointText (p : Point) : readPoint (pointText p) = some (p, []) := by
  rw [readPoint, pointText, readTriple_words (isWord_floatText p.x) (isWord_floatText p.y)
    (isWord_floatText p.z) (readFloat_floatText p.x) (readFloat_floatText p.y)
    (readFloat_floatText p.z)]
  rfl

theorem readTriangle_triangleText (t : Triangle) :
    readTriangle (triangleText t) = some (t, []) := by
  rw [readTriangle, triangleText, readTriple_words (isWord_countText _) (isWord_countText _)
    (isWord_countText _) (readIndex_countText t.a) (readIndex_countText t.b)
    (readIndex_countText t.c)]
  rfl

theorem trimEnd_words (a b : List Char) {c : List Char} (hc : IsWord c) :
    trimEnd (a ++ ' ' :: b ++ ' ' :: c) = a ++ ' ' :: b ++ ' ' :: c := by
  rw [List.append_cons]
  exact hc.trimEnd_append _

/-- A keyword in front of three numbers is a line without blanks around it. -/
theorem trim_recordLine {keyword : List Char} (hkeyword : keyword.head?.any (!isBlank ·) = true)
    (a b : List Char) {c : List Char} (hc : IsWord c) :
    trim (keyword ++ (a ++ ' ' :: b ++ ' ' :: c)) = keyword ++ (a ++ ' ' :: b ++ ' ' :: c) := by
  rw [trim_append_of_head hkeyword, trimEnd_append, trimEnd_words a b hc, if_neg (by simp)]

theorem ofText_vertexLine (p : Point) : IgesLine.ofText (vertexLine p) = .vertex p := by
  have hread := ofText_vertex (pointText p)
  rwa [readPoint_pointText] at hread

theorem ofText_faceLine (t : Triangle) : IgesLine.ofText (faceLine t) = .face t := by
  have hread := ofText_face (triangleText t)
  rwa [readTriangle_triangleText] at hread

theorem isReadFrom_vertexLine (p : Point) : (IgesLine.vertex p).IsReadFrom (vertexLine p) :=
  .of_trim (trim_recordLine (by decide) _ _ (isWord_floatText p.z)) rfl (by decide)
    (ofText_vertexLine p) fun _ => nofun

theorem isReadFrom_faceLine (t : Triangle) : (IgesLine.face t).IsReadFrom (faceLine t) :=
  .of_trim (trim_recordLine (by decide) _ _ (isWord_countText t.c.toNat)) rfl (by decide)
    (ofText_faceLine t) fun _ => nofun

theorem trim_nameLine (name : List Char) :
    trim (nameLine name) =
      if trimEnd name = [] then "MODEL".toList else nameLine (trimEnd name) :=
  (trim_append_of_head (by decide) name).trans (trimEnd_append _ name)

theorem isReadFrom_nameLine (name : List Char) :
    (IgesLine.ofName name).IsReadFrom (nameLine name) := by
  have htrim := trim_nameLine name
  unfold IgesLine.ofName
  split
  next hblank =>
    rw [if_pos hblank] at htrim
    exact .of_trim htrim rfl (by decide) rfl fun _ => nofun
  next hname =>
    rw [if_neg hname] at htrim
    exact .of_trim htrim rfl (by decide) (ofText_name _) fun _ => nofun

theorem igesText_eq_lines (m : Model) :
    igesText m =
      (igesHeader.toList :: (m.igesLines ++ [igesTerminator.toList])).flatMap line := by
  simp only [igesText, Model.igesLines, List.flatMap_cons, List.flatMap_append, List.flatMap_map,
    List.flatMap_nil, List.append_nil, List.append_assoc]
  rfl

theorem feed_not_mem_words {a b c : List Char} (ha : IsWord a) (hb : IsWord b) (hc : IsWord c) :
    '\n' ∉ a ++ ' ' :: b ++ ' ' :: c := by
  simp [ha.feed_not_mem, hb.feed_not_mem, hc.feed_not_mem]

theorem feed_not_mem_igesLines {m : Model} (hname : '\n' ∉ m.name.toList) :
    ∀ text ∈ m.igesLines, '\n' ∉ text := by
  have hkeywords : '\n' ∉ "MODEL ".toList ∧ '\n' ∉ "VERTEX ".toList ∧ '\n' ∉ "FACE ".toList := by
    decide
  obtain ⟨hmodel, hvertex, hface⟩ := hkeywords
  intro text htext
  rcases List.mem_cons.mp htext with rfl | htext
  · exact List.not_mem_append hmodel hname
  · rcases List.mem_append.mp htext with hmem | hmem
    · obtain ⟨p, -, rfl⟩ := List.mem_map.mp hmem
      exact List.not_mem_append hvertex (feed_not_mem_words (isWord_floatText p.x)
        (isWord_floatText p.y) (isWord_floatText p.z))
    · obtain ⟨t, -, rfl⟩ := List.mem_map.mp hmem
      exact List.not_mem_append hface (feed_not_mem_words (isWord_countText _)
        (isWord_countText _) (isWord_countText _))

/-- The lines as the reader takes them in. -/
def Model.igesFound (m : Model) : List IgesLine :=
  IgesLine.ofName m.name.toList ::
    (m.mesh.vertices.toList.map IgesLine.vertex ++ m.mesh.triangles.toList.map IgesLine.face)

theorem igesFound_isReadFrom (m : Model) :
    List.Forall₂ IgesLine.IsReadFrom m.igesFound m.igesLines := by
  refine List.Forall₂.cons (isReadFrom_nameLine _) (List.rel_append ?_ ?_)
  · rw [List.forall₂_map_left_iff, List.forall₂_map_right_iff, List.forall₂_same]
    exact fun p _ => isReadFrom_vertexLine p
  · rw [List.forall₂_map_left_iff, List.forall₂_map_right_iff, List.forall₂_same]
    exact fun t _ => isReadFrom_faceLine t

theorem lines_igesText (m : Model) (hname : '\n' ∉ m.name.toList) :
    lines (igesText m) = igesHeader.toList :: (m.igesLines ++ igesTerminator.toList :: [[]]) := by
  have hfeeds : ∀ text ∈ igesHeader.toList :: (m.igesLines ++ [igesTerminator.toList]),
      '\n' ∉ text := by
    intro text htext
    rcases List.mem_cons.mp htext with rfl | htext
    · decide
    · rcases List.mem_append.mp htext with hmem | hmem
      · exact feed_not_mem_igesLines hname text hmem
      · rw [List.mem_singleton.mp hmem]
        decide
  rw [igesText_eq_lines, lines_flatMap_line hfeeds, List.cons_append, List.append_assoc,
    List.singleton_append]

end Facet
