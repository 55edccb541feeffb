import Dataflow.Proofs.JsonSpelling

/-! Layouts of JSON values. A layout of a value is a text of it with white space
of one's own choice around items and members. Both writers produce layouts, and
the reader takes every layout for the value it is a layout of, so the two
writers need no separate argument about reading. -/
namespace Dataflow.Json

/-- Values with canonical tokens: every number is the shortest spelling of an
integer, and every string and key is the spelling of a text. -/
inductive Canonical : Json → Prop where
  | null : Canonical .null
  | bool (flag : Bool) : Canonical (.bool flag)
  | number (n : Int) : Canonical (.number (Decimal.signedDigits n))
  | string (text : List Char) : Canonical (.string (escape text))
  | array {items : List Json} (each : ∀ item ∈ items, Canonical item) : Canonical (.array items)
  | object {members : List (List Char × Json)}
    (keys : ∀ member ∈ members, ∃ text, member.1 = escape text)
    (each : ∀ member ∈ members, Canonical member.2) : Canonical (.object members)

/-- Only white space. -/
def Blank (gap : List Char) : Prop := ∀ c ∈ gap, isSpace c = true

/-- Texts with commas between them, each behind the gap `lead`. -/
def listText (lead : List Char) : List (List Char) → List Char
  | [] => []
  | [text] => lead ++ text
  | text :: later => lead ++ (text ++ ',' :: listText lead later)

/-- The text of an object's member. -/
def memberText (colon : List Char) (member : (List Char × Json) × List Char) : List Char :=
  quoted member.1.1 ++ ':' :: (colon ++ member.2)

/-- The texts that lay out a canonical value. Each item or member comes with its
own text, and those of one array or object with the same gap in front. -/
inductive Layout : Json → List Char → Prop where
  | null : Layout .null ['n', 'u', 'l', 'l']
  | true : Layout (.bool true) ['t', 'r', 'u', 'e']
  | false : Layout (.bool false) ['f', 'a', 'l', 's', 'e']
  | number (n : Int) : Layout (.number (Decimal.signedDigits n)) (Decimal.signedDigits n)
  | string (text : List Char) : Layout (.string (escape text)) (quoted (escape text))
  | array (items : List (Json × List Char)) {lead trail : List Char}
    (each : ∀ item ∈ items, Layout item.1 item.2) (before : Blank lead) (behind : Blank trail) :
    Layout (.array (items.map (·.1)))
      ('[' :: (listText lead (items.map (·.2)) ++ (trail ++ [']'])))
  | object (members : List ((List Char × Json) × List Char)) {lead colon trail : List Char}
    (keys : ∀ member ∈ members, ∃ text, member.1.1 = escape text)
    (each : ∀ member ∈ members, Layout member.1.2 member.2)
    (before : Blank lead) (between : Blank colon) (behind : Blank trail) :
    Layout (.object (members.map (·.1)))
      ('\x7b' :: (listText lead (members.map (memberText colon)) ++ (trail ++ ['\x7d'])))

/-! ### The writers -/

private theorem written_eq {written : List α → List Char} {lead : List Char}
    {single : α → List Char} (none : written [] = [])
    (one : ∀ item, written [item] = lead ++ single item)
    (more : ∀ item next rest, written (item :: next :: rest) =
      lead ++ (single item ++ ',' :: written (next :: rest))) (items : List α) :
    written items = listText lead (items.map single) := by
  induction items with
  | nil => exact none
  | cons item rest ih =>
    cases rest with
    | nil => exact one item
    | cons next later =>
      rw [more, ih]
      rfl

private theorem compactItems_eq (items : List Json) :
    compactItems items = listText [] (items.map compact) :=
  written_eq (by simp [compactItems]) (by simp [compactItems]) (by simp [compactItems]) items

private theorem compactMembers_eq (members : List (List Char × Json)) :
    compactMembers members =
      listText [] (members.map fun member => memberText [] (member, member.2.compact)) :=
  written_eq (by simp [compactMembers]) (by simp [compactMembers, memberText])
    (by simp [compactMembers, memberText]) members

private theorem prettyItems_eq (level : Nat) (items : List Json) :
    prettyItems level items = listText (newline level) (items.map (pretty level)) :=
  written_eq (by simp [prettyItems]) (by simp [prettyItems]) (by simp [prettyItems]) items

private theorem prettyMembers_eq (level : Nat) (members : List (List Char × Json)) :
    prettyMembers level members =
      listText (newline level)
        (members.map fun member => memberText [' '] (member, member.2.pretty level)) :=
  written_eq (by simp [prettyMembers]) (by simp [prettyMembers, memberText])
    (by simp [prettyMembers, memberText]) members

private theorem blank_nil : Blank [] := fun c member => by cases member

private theorem blank_space : Blank [' '] := fun c member => by
  rw [List.mem_singleton.mp member]
  rfl

private theorem blank_newline (level : Nat) : Blank (newline level) := by
  intro c member
  rcases List.mem_cons.mp member with rfl | space
  · rfl
  · rw [(List.mem_replicate.mp space).2]
    rfl

private theorem layout_array {items : List Json} {write : Json → List Char}
    {lead trail : List Char} (each : ∀ item ∈ items, Layout item (write item))
    (before : Blank lead) (behind : Blank trail) :
    Layout (.array items)
      ('[' :: (listText lead (items.map write) ++ (trail ++ [']']))) := by
  have laid := Layout.array (items.map fun item => (item, write item)) (by
    intro item member
    obtain ⟨value, inside, rfl⟩ := List.mem_map.mp member
    exact each value inside) before behind
  simpa [List.map_map, Function.comp_def] using laid

private theorem layout_object {members : List (List Char × Json)} {write : Json → List Char}
    {lead colon trail : List Char} (keys : ∀ member ∈ members, ∃ text, member.1 = escape text)
    (each : ∀ member ∈ members, Layout member.2 (write member.2))
    (before : Blank lead) (between : Blank colon) (behind : Blank trail) :
    Layout (.object members)
      ('\x7b' :: (listText lead (members.map fun member =>
        memberText colon (member, write member.2)) ++ (trail ++ ['\x7d']))) := by
  have laid := Layout.object (members.map fun member => (member, write member.2))
    (by
      intro member listed
      obtain ⟨entry, inside, rfl⟩ := List.mem_map.mp listed
      exact keys entry inside)
    (by
      intro member listed
      obtain ⟨entry, inside, rfl⟩ := List.mem_map.mp listed
      exact each entry inside) before between behind
  simpa [List.map_map, Function.comp_def] using laid

theorem compact_layout {json : Json} (canonical : Canonical json) :
    Layout json json.compact := by
  induction canonical with
  | null => exact .null
  | bool flag => cases flag with
    | true => exact .true
    | false => exact .false
  | number n => exact .number n
  | string text => exact .string text
  | array each ih =>
    have laid := layout_array ih blank_nil blank_nil
    simpa [compact, compactItems_eq] using laid
  | object keys each ih =>
    have laid := layout_object keys ih blank_nil blank_nil blank_nil
    simpa [compact, compactMembers_eq] using laid

theorem pretty_layout {json : Json} (canonical : Canonical json) (level : Nat) :
    Layout json (json.pretty level) := by
  induction canonical generalizing level with
  | null => exact .null
  | bool flag => cases flag with
    | true => exact .true
    | false => exact .false
  | number n => exact .number n
  | string text => exact .string text
  | @array items each ih =>
    have inner := blank_newline (level + 1)
    cases items with
    | nil =>
      have laid := layout_array (fun item member => ih item member (level + 1)) inner blank_nil
      simpa [pretty, listText] using laid
    | cons item rest =>
      have laid := layout_array (fun item member => ih item member (level + 1)) inner
        (blank_newline level)
      simpa [pretty, prettyItems_eq] using laid
  | @object members keys each ih =>
    have inner := blank_newline (level + 1)
    cases members with
    | nil =>
      have laid := layout_object keys (fun member listed => ih member listed (level + 1)) inner
        blank_space blank_nil
      simpa [pretty, listText] using laid
    | cons member rest =>
      have laid := layout_object keys (fun member listed => ih member listed (level + 1)) inner
        blank_space (blank_newline level)
      simpa [pretty, prettyMembers_eq] using laid

/-! ### The reader -/

theorem skipSpace_gap {gap : List Char} {c : Char} (blank : Blank gap) (solid : isSpace c = false)
    (rest : List Char) : skipSpace (gap ++ c :: rest) = c :: rest := by
  rw [skipSpace, List.dropWhile_append_of_pos blank, List.dropWhile_cons_of_neg (by simp [solid])]

private theorem delimited_gap {gap : List Char} {c : Char} (blank : Blank gap)
    (closing : c = ',' ∨ c = ']' ∨ c = '\x7d') (rest : List Char) :
    Delimited (gap ++ c :: rest) := by
  intro first head
  cases gap with
  | nil =>
    cases head
    exact .inr closing
  | cons space later =>
    cases head
    exact .inl (blank _ List.mem_cons_self)

private theorem ne_of_start {c : Char} (mark : Char) (start : c.isDigit = true ∨ c = '-')
    (other : (mark.isDigit || mark == '-') = false) : c ≠ mark := by
  rintro rfl
  rcases start with digit | rfl
  · simp [digit] at other
  · simp at other

private theorem number_head (n : Int) :
    ∃ c rest, Decimal.signedDigits n = c :: rest ∧ isSpace c = false ∧ c ≠ '[' ∧ c ≠ ']' ∧
      c ≠ '\x7b' ∧ c ≠ '"' ∧ c ≠ 'n' ∧ c ≠ 't' ∧ c ≠ 'f' := by
  obtain ⟨c, rest, shape, start⟩ := signedDigits_head n
  have apart (mark : Char) := ne_of_start mark start
  have solid : isSpace c = false := by
    simp [isSpace, apart ' ' rfl, apart '\t' rfl, apart '\n' rfl, apart '\r' rfl]
  exact ⟨c, rest, shape, solid, apart _ rfl, apart _ rfl, apart _ rfl, apart _ rfl, apart _ rfl,
    apart _ rfl, apart _ rfl⟩

private theorem layout_head {json : Json} {text : List Char} (laid : Layout json text) :
    ∃ c rest, text = c :: rest ∧ isSpace c = false ∧ c ≠ ']' := by
  cases laid with
  | null | true | false | string _ | array _ _ _ _ | object _ _ _ _ _ _ =>
    exact ⟨_, _, rfl, by decide, by decide⟩
  | number n =>
    obtain ⟨c, rest, shape, solid, -, notBracket, -⟩ := number_head n
    exact ⟨c, rest, shape, solid, notBracket⟩

/-- The reader takes a text for a value, behind any gap and in front of any end.
Twice the length of the text is enough fuel. -/
private def Readable (json : Json) (text : List Char) : Prop :=
  ∀ fuel gap rest, 2 * text.length ≤ fuel → Blank gap → Delimited rest →
    value fuel (gap ++ (text ++ rest)) = some (json, rest)

private theorem value_token {c : Char} (fuel : Nat) {gap : List Char} (blank : Blank gap)
    (solid : isSpace c = false) (notBracket : c ≠ '[') (notBrace : c ≠ '\x7b')
    (rest : List Char) : value (fuel + 1) (gap ++ c :: rest) = scalar (c :: rest) := by
  simp [value, skipSpace_gap blank solid, notBracket, notBrace]

private theorem readable_token {json : Json} {c : Char} {later : List Char}
    (solid : isSpace c = false) (notBracket : c ≠ '[') (notBrace : c ≠ '\x7b')
    (token : ∀ rest, Delimited rest → scalar (c :: later ++ rest) = some (json, rest)) :
    Readable json (c :: later) := by
  intro fuel gap rest enough blank ends
  obtain ⟨fuel, rfl⟩ : ∃ less, fuel = less + 1 := ⟨fuel - 1, by grind⟩
  rw [List.cons_append, value_token fuel blank solid notBracket notBrace]
  exact token rest ends

private theorem readable_number (n : Int) :
    Readable (.number (Decimal.signedDigits n)) (Decimal.signedDigits n) := by
  obtain ⟨c, later, shape, solid, notBracket, -, notBrace, other⟩ := number_head n
  rw [shape]
  refine readable_token solid notBracket notBrace fun rest ends => ?_
  have lexeme := numberLexeme_signedDigits n ends
  rw [shape, List.cons_append] at lexeme
  simp [scalar, other, lexeme]

private theorem readable_string (text : List Char) :
    Readable (.string (escape text)) (quoted (escape text)) := by
  refine readable_token (by decide) (by decide) (by decide) fun rest _ => ?_
  have body := stringBody_escape text rest
  simp [scalar, body]

private theorem items_last {fuel : Nat} {text trail rest : List Char} {item : Json}
    (head : value fuel text = some (item, trail ++ ']' :: rest)) (behind : Blank trail) :
    items (fuel + 1) text = some ([item], rest) := by
  simp [items, head, skipSpace_gap behind (c := ']') rfl]

private theorem items_more {fuel : Nat} {text later rest : List Char} {item : Json}
    {others : List Json} (head : value fuel text = some (item, ',' :: later))
    (tail : items fuel later = some (others, rest)) :
    items (fuel + 1) text = some (item :: others, rest) := by
  have comma : skipSpace (',' :: later) = ',' :: later := rfl
  simp [items, head, comma, tail]

private theorem items_layout {lead trail : List Char} (before : Blank lead) (behind : Blank trail)
    (rest : List Char) (item : Json × List Char) (later : List (Json × List Char))
    (each : ∀ entry ∈ item :: later, Readable entry.1 entry.2) (fuel : Nat)
    (enough : 2 * (listText lead ((item :: later).map (·.2))).length < fuel) :
    items fuel (listText lead ((item :: later).map (·.2)) ++ (trail ++ ']' :: rest)) =
      some ((item :: later).map (·.1), rest) := by
  induction later generalizing item fuel with
  | nil =>
    obtain ⟨fuel, rfl⟩ : ∃ less, fuel = less + 1 := ⟨fuel - 1, by omega⟩
    simp only [List.map_cons, List.map_nil, listText, List.length_append,
      List.append_assoc] at enough ⊢
    apply items_last _ behind
    exact each item List.mem_cons_self fuel lead _ (by omega) before
      (delimited_gap behind (by simp) rest)
  | cons next others ih =>
    obtain ⟨fuel, rfl⟩ : ∃ less, fuel = less + 1 := ⟨fuel - 1, by omega⟩
    simp only [List.map_cons, listText, List.length_append, List.length_cons, List.append_assoc,
      List.cons_append] at enough ih ⊢
    apply items_more
    · exact each item List.mem_cons_self fuel lead _ (by omega) before
        (delimited_gap blank_nil (.inl rfl) _)
    · exact ih next (fun entry member => each entry (List.mem_cons_of_mem _ member)) fuel
        (by omega)

private theorem memberKey_gap {lead : List Char} (before : Blank lead) (key rest : List Char) :
    memberKey (lead ++ (quoted (escape key) ++ ':' :: rest)) = some (escape key, rest) := by
  have body := stringBody_escape key (':' :: rest)
  have colon : skipSpace (':' :: rest) = ':' :: rest := rfl
  simp [memberKey, quoted, skipSpace_gap before (c := '"') rfl, body, colon]

private theorem members_last {fuel : Nat} {text after trail rest key : List Char} {item : Json}
    (named : memberKey text = some (key, after))
    (head : value fuel after = some (item, trail ++ '\x7d' :: rest)) (behind : Blank trail) :
    members (fuel + 1) text = some ([(key, item)], rest) := by
  simp [members, named, head, skipSpace_gap behind (c := '\x7d') rfl]

private theorem members_more {fuel : Nat} {text after later rest key : List Char} {item : Json}
    {others : List (List Char × Json)} (named : memberKey text = some (key, after))
    (head : value fuel after = some (item, ',' :: later))
    (tail : members fuel later = some (others, rest)) :
    members (fuel + 1) text = some ((key, item) :: others, rest) := by
  have comma : skipSpace (',' :: later) = ',' :: later := rfl
  simp [members, named, head, comma, tail]

private theorem members_layout {lead colon trail : List Char} (before : Blank lead)
    (between : Blank colon) (behind : Blank trail) (rest : List Char)
    (member : (List Char × Json) × List Char) (later : List ((List Char × Json) × List Char))
    (keys : ∀ entry ∈ member :: later, ∃ text, entry.1.1 = escape text)
    (each : ∀ entry ∈ member :: later, Readable entry.1.2 entry.2) (fuel : Nat)
    (enough : 2 * (listText lead ((member :: later).map (memberText colon))).length < fuel) :
    members fuel (listText lead ((member :: later).map (memberText colon)) ++
      (trail ++ '\x7d' :: rest)) = some ((member :: later).map (·.1), rest) := by
  induction later generalizing member fuel with
  | nil =>
    obtain ⟨fuel, rfl⟩ : ∃ less, fuel = less + 1 := ⟨fuel - 1, by omega⟩
    obtain ⟨⟨raw, item⟩, text⟩ := member
    obtain ⟨key, rfl⟩ : ∃ text, raw = escape text := keys _ List.mem_cons_self
    simp only [List.map_cons, List.map_nil, listText, memberText, List.length_append,
      List.length_cons, List.append_assoc, List.cons_append] at enough ⊢
    apply members_last (memberKey_gap before key _) _ behind
    exact each _ List.mem_cons_self fuel colon _ (by dsimp only; omega) between
      (delimited_gap behind (by simp) rest)
  | cons next others ih =>
    obtain ⟨fuel, rfl⟩ : ∃ less, fuel = less + 1 := ⟨fuel - 1, by omega⟩
    obtain ⟨⟨raw, item⟩, text⟩ := member
    obtain ⟨key, rfl⟩ : ∃ text, raw = escape text := keys _ List.mem_cons_self
    simp only [List.map_cons, listText, memberText, List.length_append, List.length_cons,
      List.append_assoc, List.cons_append] at enough ih ⊢
    apply members_more (memberKey_gap before key _)
    · exact each _ List.mem_cons_self fuel colon _ (by dsimp only; omega) between
        (delimited_gap blank_nil (.inl rfl) _)
    · exact ih next (fun entry listed => keys entry (List.mem_cons_of_mem _ listed))
        (fun entry listed => each entry (List.mem_cons_of_mem _ listed)) fuel (by omega)

private theorem listText_cons (lead text : List Char) (later : List (List Char)) :
    ∃ more, listText lead (text :: later) = lead ++ (text ++ more) := by
  cases later with
  | nil => exact ⟨[], by simp [listText]⟩
  | cons next others => exact ⟨_, rfl⟩

private theorem value_items {fuel : Nat} {gap body start rest : List Char} {c : Char}
    {found : List Json} (blank : Blank gap) (opening : skipSpace body = c :: start)
    (notBracket : c ≠ ']') (inside : items fuel body = some (found, rest)) :
    value (fuel + 1) (gap ++ '[' :: body) = some (.array found, rest) := by
  simp [value, skipSpace_gap blank (c := '[') rfl, opening, notBracket, inside]

private theorem value_members {fuel : Nat} {gap body start rest : List Char}
    {found : List (List Char × Json)} (blank : Blank gap)
    (opening : skipSpace body = '"' :: start) (inside : members fuel body = some (found, rest)) :
    value (fuel + 1) (gap ++ '\x7b' :: body) = some (.object found, rest) := by
  simp [value, skipSpace_gap blank (c := '\x7b') rfl, opening, inside]

private theorem readable_array {lead trail : List Char} (entries : List (Json × List Char))
    (each : ∀ entry ∈ entries, Layout entry.1 entry.2)
    (readable : ∀ entry ∈ entries, Readable entry.1 entry.2)
    (before : Blank lead) (behind : Blank trail) :
    Readable (.array (entries.map (·.1)))
      ('[' :: (listText lead (entries.map (·.2)) ++ (trail ++ [']']))) := by
  intro fuel gap rest enough blank ends
  simp only [List.length_cons, List.length_append] at enough
  obtain ⟨fuel, rfl⟩ : ∃ less, fuel = less + 1 := ⟨fuel - 1, by omega⟩
  simp only [List.cons_append, List.append_assoc, List.nil_append]
  cases entries with
  | nil =>
    simp [listText, value, skipSpace_gap blank (c := '[') rfl, skipSpace_gap behind (c := ']') rfl]
  | cons entry later =>
    -- The first item starts behind the gap, and not with the closing bracket.
    obtain ⟨c, start, first, solid, notBracket⟩ := layout_head (each entry List.mem_cons_self)
    obtain ⟨more, shape⟩ := listText_cons lead entry.2 (later.map (·.2))
    have opening : skipSpace (listText lead ((entry :: later).map (·.2)) ++
        (trail ++ ']' :: rest)) = c :: (start ++ more ++ (trail ++ ']' :: rest)) := by
      rw [List.map_cons, shape, first]
      simp [skipSpace_gap before solid]
    exact value_items blank opening notBracket
      (items_layout before behind rest entry later readable fuel (by omega))

private theorem readable_object {lead colon trail : List Char}
    (entries : List ((List Char × Json) × List Char))
    (keys : ∀ entry ∈ entries, ∃ text, entry.1.1 = escape text)
    (readable : ∀ entry ∈ entries, Readable entry.1.2 entry.2)
    (before : Blank lead) (between : Blank colon) (behind : Blank trail) :
    Readable (.object (entries.map (·.1)))
      ('\x7b' :: (listText lead (entries.map (memberText colon)) ++ (trail ++ ['\x7d']))) := by
  intro fuel gap rest enough blank ends
  simp only [List.length_cons, List.length_append] at enough
  obtain ⟨fuel, rfl⟩ : ∃ less, fuel = less + 1 := ⟨fuel - 1, by omega⟩
  simp only [List.cons_append, List.append_assoc, List.nil_append]
  cases entries with
  | nil =>
    simp [listText, value, skipSpace_gap blank (c := '\x7b') rfl,
      skipSpace_gap behind (c := '\x7d') rfl]
  | cons entry later =>
    -- Every member starts with the quote of its key.
    obtain ⟨more, shape⟩ := listText_cons lead (memberText colon entry)
      (later.map (memberText colon))
    have opening : ∃ start, skipSpace (listText lead ((entry :: later).map (memberText colon)) ++
        (trail ++ '\x7d' :: rest)) = '"' :: start := by
      rw [List.map_cons, shape]
      exact ⟨_, by simp [memberText, quoted, skipSpace_gap before (c := '"') rfl]; rfl⟩
    obtain ⟨start, opening⟩ := opening
    exact value_members blank opening
      (members_layout before between behind rest entry later keys readable fuel (by omega))

private theorem readable_layout {json : Json} {text : List Char} (laid : Layout json text) :
    Readable json text := by
  induction laid with
  | null | true | false =>
    exact readable_token (by decide) (by decide) (by decide) fun rest _ => rfl
  | number n => exact readable_number n
  | string text => exact readable_string text
  | array entries each before behind ih => exact readable_array entries each ih before behind
  | object entries keys each before between behind ih =>
    exact readable_object entries keys ih before between behind

/-- A text that is a layout of a value is read as that value. -/
theorem read_layout {json : Json} {text : List Char} (laid : Layout json text) :
    read text = some json := by
  have whole := readable_layout laid (2 * text.length + 2) [] [] (by omega) blank_nil
    (fun c none => by cases none)
  simp only [List.nil_append, List.append_nil] at whole
  simp [read, whole, skipSpace]

end Dataflow.Json
