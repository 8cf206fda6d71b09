import FieldShadow.Text.Line

/-!
# Pieces of a text

A text that is cut loses separators, line ends and the white space around its pieces. No piece has a
character that the text has not (`mem_of_mem_lines`, `mem_of_mem_trim`), and what is kept of a piece
does not depend on the white space around it (`trimSpace_around`).
-/

namespace FieldShadow.Text

/-! ## Characters -/

/-- A character put in front of the first line stands in a line of its own text or was there before.
-/
theorem mem_of_mem_consToFirst {c d : Char} {lines : List (List Char)} {line : List Char}
    (hline : line ∈ consToFirst c lines) (hd : d ∈ line) : d = c ∨ ∃ l ∈ lines, d ∈ l := by
  cases lines with
  | nil =>
    obtain rfl := List.mem_singleton.mp hline
    exact .inl (List.mem_singleton.mp hd)
  | cons first lines =>
    rcases List.mem_cons.mp hline with rfl | hline
    · rcases List.mem_cons.mp hd with rfl | hd
      · exact .inl rfl
      · exact .inr ⟨first, List.mem_cons_self, hd⟩
    · exact .inr ⟨line, List.mem_cons_of_mem _ hline, hd⟩

/-- Lines have the characters of their text only. -/
theorem mem_of_mem_splitLines {cs line : List Char} {d : Char} (hline : line ∈ splitLines cs)
    (hd : d ∈ line) : d ∈ cs := by
  induction cs using splitLines.induct generalizing line with
  | case1 => exact absurd hline List.not_mem_nil
  | case2 rest ih =>
    rw [splitLines] at hline
    rcases List.mem_cons.mp hline with rfl | hline
    · exact absurd hd List.not_mem_nil
    · exact List.mem_cons_of_mem _ (ih hline hd)
  | case3 rest ih =>
    rw [splitLines] at hline
    rcases List.mem_cons.mp hline with rfl | hline
    · exact absurd hd List.not_mem_nil
    · exact List.mem_cons_of_mem _ (List.mem_cons_of_mem _ (ih hline hd))
  | case4 c rest hc hreturn ih =>
    rw [splitLines.eq_4 c rest hc hreturn] at hline
    rcases mem_of_mem_consToFirst hline hd with rfl | ⟨l, hl, hd⟩
    · exact List.mem_cons_self
    · exact List.mem_cons_of_mem _ (ih hl hd)

theorem mem_of_mem_lines {s line : String} {d : Char} (hline : line ∈ lines s)
    (hd : d ∈ line.toList) : d ∈ s.toList := by
  obtain ⟨cs, hcs, rfl⟩ := List.mem_map.mp hline
  exact mem_of_mem_splitLines hcs (by simpa using hd)

/-- Fields have the characters of their text only. -/
theorem mem_of_mem_splitFields {separator d : Char} {cs field : List Char}
    (hfield : field ∈ splitFields separator cs) (hd : d ∈ field) : d ∈ cs := by
  induction cs generalizing field with
  | nil =>
    obtain rfl := List.mem_singleton.mp hfield
    exact hd
  | cons c rest ih =>
    rw [splitFields] at hfield
    split at hfield
    · rcases List.mem_cons.mp hfield with rfl | hfield
      · exact absurd hd List.not_mem_nil
      · exact List.mem_cons_of_mem _ (ih hfield hd)
    · rcases mem_of_mem_consToFirst hfield hd with rfl | ⟨l, hl, hd⟩
      · exact List.mem_cons_self
      · exact List.mem_cons_of_mem _ (ih hl hd)

/-- What is trimmed has the characters of the text only. -/
theorem mem_of_mem_trimSpace {cs : List Char} {d : Char} (hd : d ∈ trimSpace cs) : d ∈ cs := by
  have hback := (List.dropWhile_sublist Unicode.isWhiteSpace).subset (List.mem_reverse.mp hd)
  exact (List.dropWhile_sublist Unicode.isWhiteSpace).subset (List.mem_reverse.mp hback)

theorem mem_of_mem_trim {s : String} {d : Char} (hd : d ∈ (trim s).toList) : d ∈ s.toList :=
  mem_of_mem_trimSpace (by simpa [trim] using hd)

/-- The items of a list have the characters of the list only, since they are trimmed fields. -/
theorem mem_of_mem_listItems {s item : String} {d : Char} (hitem : item ∈ listItems s)
    (hd : d ∈ item.toList) : d ∈ s.toList := by
  obtain ⟨hitem, -⟩ := List.mem_filter.mp hitem
  obtain ⟨field, hfield, rfl⟩ := List.mem_map.mp hitem
  exact mem_of_mem_splitFields hfield (mem_of_mem_trimSpace (by simpa using hd))

/-! ## White space -/

/-- Whether a text is white space. -/
def White (cs : List Char) : Prop :=
  ∀ c ∈ cs, Unicode.isWhiteSpace c

theorem white_nil : White [] :=
  fun _ hc => absurd hc List.not_mem_nil

/-- Whether a text is white space can be computed, which closed texts are checked by. -/
theorem white_of_all {cs : List Char} (h : cs.all Unicode.isWhiteSpace) : White cs :=
  List.all_eq_true.mp h

/-- A text without the white space in front of it. -/
def dropFront (cs : List Char) : List Char :=
  cs.dropWhile Unicode.isWhiteSpace

/-- A text without the white space behind it. -/
def dropBack (cs : List Char) : List Char :=
  (cs.reverse.dropWhile Unicode.isWhiteSpace).reverse

/-- Trimming is dropping at both ends, one after the other. -/
theorem trimSpace_eq (cs : List Char) : trimSpace cs = dropBack (dropFront cs) :=
  rfl

/-- What is dropped in front is white space. -/
theorem exists_dropFront (cs : List Char) : ∃ u, White u ∧ cs = u ++ dropFront cs :=
  ⟨cs.takeWhile Unicode.isWhiteSpace, white_of_all List.all_takeWhile,
    List.takeWhile_append_dropWhile.symm⟩

/-- What is dropped at the back is white space. -/
theorem exists_dropBack (cs : List Char) : ∃ v, White v ∧ cs = dropBack cs ++ v := by
  have hwhite : White (cs.reverse.takeWhile Unicode.isWhiteSpace) :=
    white_of_all List.all_takeWhile
  refine ⟨_, fun c hc => hwhite c (List.mem_reverse.mp hc), ?_⟩
  rw [dropBack, ← List.reverse_append, List.takeWhile_append_dropWhile, List.reverse_reverse]

/-- White space in front makes no difference to what is left. -/
theorem dropFront_append {u : List Char} (hu : White u) (cs : List Char) :
    dropFront (u ++ cs) = dropFront cs :=
  List.dropWhile_append_of_pos hu

/-- White space at the back makes no difference to what is left. -/
theorem dropBack_append {v : List Char} (hv : White v) (cs : List Char) :
    dropBack (cs ++ v) = dropBack cs := by
  rw [dropBack, List.reverse_append,
    List.dropWhile_append_of_pos fun c hc => hv c (List.mem_reverse.mp hc)]
  rfl

/-- White space behind a text takes part in it only if the text has other characters. -/
theorem dropFront_append_white {v : List Char} (hv : White v) (cs : List Char) :
    dropFront (cs ++ v) = if dropFront cs = [] then [] else dropFront cs ++ v := by
  have hnil : dropFront v = [] := by
    rw [← List.append_nil v, dropFront_append hv]
    rfl
  rw [dropFront, List.dropWhile_append]
  by_cases h : dropFront cs = []
  · rw [if_pos h, if_pos (by simpa [dropFront] using h)]
    exact hnil
  · rw [if_neg h, if_neg (by simpa [dropFront] using h)]
    rfl

/-- White space around a piece is of no account. -/
theorem trimSpace_around {u v : List Char} (hu : White u) (hv : White v) (cs : List Char) :
    trimSpace (u ++ cs ++ v) = trimSpace cs := by
  rw [trimSpace_eq, trimSpace_eq, List.append_assoc, dropFront_append hu,
    dropFront_append_white hv]
  split
  · next h => rw [h]
  · exact dropBack_append hv _

/-- A trim drops what is in front anyway. -/
theorem trimSpace_dropFront (cs : List Char) : trimSpace (dropFront cs) = trimSpace cs := by
  obtain ⟨u, hu, heq⟩ := exists_dropFront cs
  have haround := trimSpace_around hu (v := []) nofun (dropFront cs)
  rw [List.append_nil, ← heq] at haround
  exact haround.symm

/-- A trim drops what is at the back anyway. -/
theorem trimSpace_dropBack (cs : List Char) : trimSpace (dropBack cs) = trimSpace cs := by
  obtain ⟨v, hv, heq⟩ := exists_dropBack cs
  have haround := trimSpace_around (u := []) nofun hv (dropBack cs)
  rw [List.nil_append, ← heq] at haround
  exact haround.symm

/-- A character that is not white stops the dropping in front. -/
theorem dropFront_append_cons {c : Char} (hc : ¬ Unicode.isWhiteSpace c) (x y : List Char) :
    dropFront (x ++ c :: y) = dropFront x ++ c :: y := by
  rw [dropFront, List.dropWhile_append]
  split
  · next h => rw [List.dropWhile_cons_of_neg hc, dropFront, List.isEmpty_iff.mp h, List.nil_append]
  · rfl

/-- A character that is not white stops the dropping at the back. -/
theorem dropBack_append_cons {c : Char} (hc : ¬ Unicode.isWhiteSpace c) (x y : List Char) :
    dropBack (x ++ c :: y) = x ++ c :: dropBack y := by
  have hfront := dropFront_append_cons hc y.reverse x.reverse
  rw [dropBack, List.reverse_append, List.reverse_cons, List.append_assoc, List.singleton_append]
  rw [dropFront] at hfront
  rw [hfront]
  simp [dropFront, dropBack]

/-- A character that is no white space keeps its place between what stands around it. -/
theorem trimSpace_append_cons {c : Char} (hc : ¬ Unicode.isWhiteSpace c) (x y : List Char) :
    trimSpace (x ++ c :: y) = dropFront x ++ c :: dropBack y := by
  rw [trimSpace_eq, dropFront_append_cons hc, dropBack_append_cons hc]

/-- Nothing is dropped in front exactly when the first character is not white. -/
theorem dropFront_eq_self {cs : List Char} :
    dropFront cs = cs ↔ ∀ c ∈ cs.head?, ¬ Unicode.isWhiteSpace c := by
  cases cs with
  | nil => simp [dropFront]
  | cons c cs =>
    by_cases hc : Unicode.isWhiteSpace c
    · refine iff_of_false (fun h => ?_) (fun h => h c rfl hc)
      have hlength := congrArg List.length h
      rw [dropFront, List.dropWhile_cons_of_pos hc, List.length_cons] at hlength
      have hle := (List.dropWhile_sublist (l := cs) Unicode.isWhiteSpace).length_le
      omega
    · refine iff_of_true (List.dropWhile_cons_of_neg hc) fun d hd => ?_
      obtain rfl := Option.some.inj hd
      exact hc

/-- Nothing is dropped at the back exactly when the last character is not white. -/
theorem dropBack_eq_self {cs : List Char} :
    dropBack cs = cs ↔ ∀ c ∈ cs.getLast?, ¬ Unicode.isWhiteSpace c := by
  rw [dropBack, List.reverse_eq_iff, ← List.head?_reverse]
  exact dropFront_eq_self

/-- A text keeps all of its characters iff it neither begins nor ends with white space. -/
theorem trimSpace_eq_self {cs : List Char} :
    trimSpace cs = cs ↔ (∀ c ∈ cs.head?, ¬ Unicode.isWhiteSpace c) ∧
      ∀ c ∈ cs.getLast?, ¬ Unicode.isWhiteSpace c := by
  rw [← dropFront_eq_self, ← dropBack_eq_self]
  constructor
  · intro h
    -- what is lost in front cannot come back behind
    have hfront : dropFront cs = cs := by
      obtain ⟨u, -, hu⟩ := exists_dropFront cs
      obtain ⟨v, -, hv⟩ := exists_dropBack (dropFront cs)
      rw [← trimSpace_eq, h] at hv
      have hlength := congrArg List.length hv
      have hlength' := congrArg List.length hu
      simp only [List.length_append] at hlength hlength'
      obtain rfl : v = [] := List.length_eq_zero_iff.mp (by omega)
      simpa using hv
    exact ⟨hfront, by rw [← hfront, ← trimSpace_eq, h, hfront]⟩
  · rintro ⟨hfront, hback⟩
    rw [trimSpace_eq, hfront, hback]

/-- Trimming twice is trimming once. -/
theorem trimSpace_trimSpace (cs : List Char) : trimSpace (trimSpace cs) = trimSpace cs := by
  rw [trimSpace_eq cs, trimSpace_dropBack, trimSpace_dropFront, ← trimSpace_eq]

/-- Pieces that begin and end with no white space, and what stands between them. -/
theorem trimSpace_intercalate (between : List Char) {first : List Char} {pieces : List (List Char)}
    (h : ∀ piece ∈ first :: pieces, piece ≠ [] ∧ trimSpace piece = piece) :
    trimSpace (between.intercalate (first :: pieces)) = between.intercalate (first :: pieces) := by
  have hhead : ∀ first pieces, first ≠ [] →
      (between.intercalate (first :: pieces)).head? = first.head? := by
    intro first pieces hne
    obtain ⟨c, cs, rfl⟩ := List.exists_cons_of_ne_nil hne
    cases pieces <;> simp [List.intercalate_cons_cons]
  -- nothing is trimmed if neither end is white: the first piece begins it and the last one ends it
  refine trimSpace_eq_self.mpr ⟨?_, ?_⟩
  · obtain ⟨hne, htrim⟩ := h first List.mem_cons_self
    rw [hhead first pieces hne]
    exact (trimSpace_eq_self.mp htrim).1
  · induction pieces generalizing first with
    | nil =>
      rw [List.intercalate_singleton]
      exact (trimSpace_eq_self.mp (h first List.mem_cons_self).2).2
    | cons second pieces ih =>
      have hrest := fun piece hpiece => h piece (List.mem_cons_of_mem first hpiece)
      have hne : between.intercalate (second :: pieces) ≠ [] := by
        intro hnil
        have hfirst := hhead second pieces (hrest second List.mem_cons_self).1
        rw [hnil, List.head?_nil, eq_comm, List.head?_eq_none_iff] at hfirst
        exact (hrest second List.mem_cons_self).1 hfirst
      rw [List.intercalate_cons_cons, List.getLast?_append, List.getLast?_eq_some_getLast hne,
        Option.some_or, ← List.getLast?_eq_some_getLast hne]
      exact ih hrest

/-! ## Separators -/

/-- A text is split at the first separator, so what stands before it may not have one. -/
theorem splitOnce?_append_cons {separator : Char} {before : List Char} (h : separator ∉ before)
    (after : List Char) :
    splitOnce? separator (String.ofList (before ++ separator :: after)) =
      some (String.ofList before, String.ofList after) := by
  have hbefore : ∀ c ∈ before, (c != separator) = true := by
    intro c hc
    rw [bne_iff_ne]
    rintro rfl
    exact h hc
  rw [splitOnce?, String.toList_ofList, List.dropWhile_append_of_pos hbefore,
    List.dropWhile_cons_of_neg (by simp), List.takeWhile_append_of_pos hbefore,
    List.takeWhile_cons_of_neg (by simp)]
  simp

/-- A text is not split exactly when it has no separator. -/
theorem splitOnce?_eq_none {separator : Char} {s : String} :
    splitOnce? separator s = none ↔ separator ∉ s.toList := by
  cases h : splitOnce? separator s with
  | none =>
    refine iff_of_true rfl fun hmem => ?_
    unfold splitOnce? at h
    split at h
    · next hnil =>
      rw [← List.takeWhile_append_dropWhile (p := (· != separator)) (l := s.toList), hnil,
        List.append_nil] at hmem
      simpa using List.all_eq_true.mp List.all_takeWhile separator hmem
    · cases h
  | some parts =>
    obtain ⟨before, after⟩ := parts
    simp [(splitOnce?_eq_some h).1]

/-- A field ends at the first separator behind it. -/
theorem splitFields_append_cons {separator : Char} {field : List Char} (h : separator ∉ field)
    (rest : List Char) :
    splitFields separator (field ++ separator :: rest) = field :: splitFields separator rest := by
  induction field with
  | nil => simp [splitFields]
  | cons c field ih =>
    obtain ⟨hc, hfield⟩ := not_or.mp (mt List.mem_cons.mpr h)
    rw [List.cons_append, splitFields, if_neg (Ne.symm hc), ih hfield, consToFirst]

/-- A text without separators is one field. -/
theorem splitFields_of_not_mem {separator : Char} {field : List Char} (h : separator ∉ field) :
    splitFields separator field = [field] := by
  induction field with
  | nil => rfl
  | cons c field ih =>
    obtain ⟨hc, hfield⟩ := not_or.mp (mt List.mem_cons.mpr h)
    rw [splitFields, if_neg (Ne.symm hc), ih hfield, consToFirst]

/-- No field has a separator in it. -/
theorem not_mem_of_mem_splitFields {separator : Char} {cs field : List Char}
    (h : field ∈ splitFields separator cs) : separator ∉ field := by
  induction cs generalizing field with
  | nil =>
    obtain rfl := List.mem_singleton.mp h
    exact List.not_mem_nil
  | cons c cs ih =>
    rw [splitFields] at h
    split at h
    · rcases List.mem_cons.mp h with rfl | h
      · exact List.not_mem_nil
      · exact ih h
    · next hc =>
      -- a character that is no separator goes to the front of the first field
      cases hfields : splitFields separator cs with
      | nil =>
        rw [hfields, consToFirst, List.mem_singleton] at h
        simpa [h] using Ne.symm hc
      | cons first fields =>
        rw [hfields, consToFirst] at h
        rcases List.mem_cons.mp h with rfl | h
        · have hfirst := ih (hfields ▸ List.mem_cons_self)
          simpa [hfirst] using Ne.symm hc
        · exact ih (hfields ▸ List.mem_cons_of_mem _ h)

/-- Fields with a separator and one more character between them. -/
theorem splitFields_intercalate {separator space : Char} (hspace : space ≠ separator)
    {first : List Char} {fields : List (List Char)} (hfirst : separator ∉ first)
    (hfields : ∀ field ∈ fields, separator ∉ field) :
    splitFields separator ([separator, space].intercalate (first :: fields)) =
      first :: fields.map (space :: ·) := by
  induction fields generalizing first with
  | nil => simpa using splitFields_of_not_mem hfirst
  | cons second fields ih =>
    obtain ⟨hsecond, hfields⟩ := List.forall_mem_cons.mp hfields
    have hspaced : separator ∉ space :: second := by simp [hsecond, Ne.symm hspace]
    have hrest := ih hspaced hfields
    have hcons : [separator, space].intercalate ((space :: second) :: fields) =
        space :: [separator, space].intercalate (second :: fields) := by
      cases fields <;> simp [List.intercalate_cons_cons]
    rw [List.intercalate_cons_cons, List.append_assoc, List.cons_append, List.singleton_append,
      splitFields_append_cons hfirst, ← hcons, hrest, List.map_cons]

/-! ## Lines between line feeds -/

/-- What stands between the line feeds of a text. -/
def rawLines (s : String) : List String :=
  (splitFields '\n' s.toList).map String.ofList

/-- What stands between line feeds against the lines that it is: these have lost a carriage return
at their end, and a last line that is empty is none. -/
inductive Ended : (raws lines : List (List Char)) → Prop
  | stop : Ended [[]] []
  | last (line : List Char) : Ended [line] [line]
  | cons {raw line : List Char} {raws lines : List (List Char)}
      (hraw : raw = line ∨ raw = line ++ ['\r']) (rest : Ended raws lines) :
      Ended (raw :: raws) (line :: lines)

/-- Raw lines and lines stay matched when a character is put in front of the first of each. -/
theorem Ended.consToFirst {raws lines : List (List Char)} (h : Ended raws lines) (c : Char) :
    Ended (consToFirst c raws) (consToFirst c lines) := by
  cases h with
  | stop => exact .last [c]
  | last line => exact .last (c :: line)
  | cons hraw rest => exact .cons (hraw.imp (congrArg (c :: ·)) (congrArg (c :: ·))) rest

/-- The lines of a text are its pieces between line feeds, each without its carriage return if a
line feed followed, and without an empty last one. -/
theorem ended_splitLines (cs : List Char) : Ended (splitFields '\n' cs) (splitLines cs) := by
  induction cs using splitLines.induct with
  | case1 => exact .stop
  | case2 rest ih =>
    rw [splitLines]
    exact .cons (.inl rfl) ih
  | case3 rest ih =>
    rw [splitLines]
    exact .cons (.inr rfl) ih
  | case4 c rest hc hreturn ih =>
    rw [splitLines.eq_4 c rest hc hreturn, splitFields, if_neg hc]
    exact ih.consToFirst c

/-- So each line is a raw one, or a raw one without its carriage return. -/
theorem Ended.exists_raw {raws lines : List (List Char)} (h : Ended raws lines)
    {line : List Char} (hline : line ∈ lines) :
    ∃ raw ∈ raws, raw = line ∨ raw = line ++ ['\r'] := by
  induction h with
  | stop => exact absurd hline List.not_mem_nil
  | last => exact ⟨line, hline, .inl rfl⟩
  | @cons raw _ _ _ hraw _ ih =>
    rcases List.mem_cons.mp hline with rfl | hline
    · exact ⟨raw, List.mem_cons_self, hraw⟩
    · obtain ⟨raw, hmem, hraw⟩ := ih hline
      exact ⟨raw, List.mem_cons_of_mem _ hmem, hraw⟩

/-- No line has a line feed in it. -/
theorem lineFeed_not_mem_of_mem_lines {s line : String} (h : line ∈ lines s) :
    '\n' ∉ line.toList := by
  obtain ⟨cs, hcs, rfl⟩ := List.mem_map.mp h
  obtain ⟨raw, hmem, hraw⟩ := (ended_splitLines s.toList).exists_raw hcs
  have hfeed := not_mem_of_mem_splitFields hmem
  rcases hraw with rfl | rfl <;> simpa using hfeed

/-- To what says nothing of empty lines and nothing of carriage returns at line ends, the lines of a
text are what stands between its line feeds. -/
theorem filterMap_rawLines {α : Type} {f : String → Option α} (hempty : f "" = none)
    (hreturn : ∀ line, f (line ++ "\r") = f line) (s : String) :
    (rawLines s).filterMap f = (lines s).filterMap f := by
  have hended := ended_splitLines s.toList
  rw [rawLines, lines, List.filterMap_map, List.filterMap_map]
  generalize splitFields '\n' s.toList = raws at hended ⊢
  generalize splitLines s.toList = lines at hended ⊢
  -- the lines differ by carriage returns at their ends only, and `f` does not see these
  induction hended with
  | stop => simpa using hempty
  | last line => rfl
  | @cons raw line raws lines hraw rest ih =>
    have hline : f (String.ofList raw) = f (String.ofList line) := by
      rcases hraw with rfl | rfl
      · rfl
      · rw [String.ofList_append]
        exact hreturn _
    rw [List.filterMap_cons, List.filterMap_cons, Function.comp_apply, Function.comp_apply, hline,
      ih]

end FieldShadow.Text
