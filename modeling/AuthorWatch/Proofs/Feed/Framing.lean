import AuthorWatch.Proofs.Feed.Frame
import AuthorWatch.Proofs.Json.Equality
import AuthorWatch.Proofs.Text.Utf8
import Mathlib.Data.List.Forall2

/-! How a feed is cut into messages. A frame is read pair by pair, and no pair takes part in the
reading of another: so frames over the parts of a list of pairs give together what one frame over
the whole list gives, a pair without an event can be left out, and a member that follows the last
whole pair says nothing. -/

namespace AuthorWatch

/-- The text is one of the JSON array with these items. -/
def Json.Lists (t : Text) (items : List Json) : Prop := read .lenient t = .ok (.array items)

instance (t : Text) (items : List Json) : Decidable (Json.Lists t items) :=
  inferInstanceAs (Decidable (_ = _))

/-- The text of a message, unless its bytes are the UTF-8 form of none. -/
def Message.text? : Message → Option Text
  | text t => some t
  | binary bytes => Utf8.decode? bytes

namespace Frame

/-- The items of an array of pairs. -/
def items (ps : List Pair) : List Json := ps.flatMap fun pair => [pair.1, pair.2]

@[simp] theorem items_cons (pair : Pair) (ps : List Pair) :
    items (pair :: ps) = pair.1 :: pair.2 :: items ps := rfl

/-- Whole pairs are found whatever follows them. -/
theorem pairs_items_append (ps : List Pair) (rest : List Json) :
    pairs (items ps ++ rest) = ps ++ pairs rest := by
  induction ps with
  | nil => rfl
  | cons pair ps ih => rw [items_cons, List.cons_append, List.cons_append, pairs, ih]; rfl

@[simp] theorem pairs_items (ps : List Pair) : pairs (items ps) = ps := by
  have h := pairs_items_append ps []
  rwa [List.append_nil, show pairs [] = [] from rfl, List.append_nil] at h

theorem length_pairs (members : List Json) : (pairs members).length = members.length / 2 := by
  fun_induction pairs members with
  | case1 action payload rest ih =>
    rw [List.length_cons, ih, List.length_cons, List.length_cons]
    omega
  | case2 members h =>
    rcases members with _ | ⟨action, _ | ⟨payload, rest⟩⟩
    · rfl
    · simp
    · exact absurd rfl (h action payload rest)

/-! ### Events and notices, pair by pair -/

/-- Frames one after the other. -/
instance : Append Frame := ⟨fun f g => ⟨f.events ++ g.events, f.notices ++ g.notices⟩⟩

@[simp] theorem events_append (f g : Frame) : (f ++ g).events = f.events ++ g.events := rfl

@[simp] theorem notices_append (f g : Frame) : (f ++ g).notices = f.notices ++ g.notices := rfl

theorem ofPairs_append (ps qs : List Pair) : ofPairs (ps ++ qs) = ofPairs ps ++ ofPairs qs := by
  show (⟨_, _⟩ : Frame) = ⟨_, _⟩
  rw [List.filterMap_append, List.filterMap_append]
  rfl

/-- A pair without an event leaves its notice. -/
theorem ofPairs_of_error {pair : Pair} {notice : Notice} (h : event pair = .error notice) :
    ofPairs [pair] = ⟨[], [notice]⟩ := by
  simp [ofPairs, h, Except.toOption]

/-! ### Messages -/

theorem ofText_of_lists {t : Text} {members : List Json} (h : Json.Lists t members) :
    ofText t = ofPairs (pairs members) := by
  rw [Json.Lists] at h
  simp only [ofText, h]

theorem ofText_of_pairs {t : Text} {ps : List Pair} (h : Json.Lists t (items ps)) :
    ofText t = ofPairs ps := by
  rw [ofText_of_lists h, pairs_items]

/-- A message has events only through the array that its text is of. -/
theorem events_eq_nil_of_not_lists {message : Message}
    (h : ∀ t members, message.text? = some t → ¬ Json.Lists t members) :
    (ofMessage message).events = [] := by
  have htext : ∀ t, message.text? = some t → (ofText t).events = [] := by
    intro t ht
    unfold ofText
    split
    · rfl
    next members hread => exact absurd hread (h t members ht)
    · rfl
  cases message with
  | text t => exact htext t rfl
  | binary bytes =>
    unfold ofMessage
    dsimp only
    split
    · rfl
    next t ht => exact htext t ht

theorem ofMessage_of_text {message : Message} {t : Text} (h : message.text? = some t) :
    ofMessage message = ofText t := by
  cases message with
  | text u => cases h; rfl
  | binary bytes =>
    have hbytes : Utf8.decode? bytes = some t := h
    simp only [ofMessage, hbytes]

/-- Frames over the parts of a list of pairs are together the frame over the whole list. -/
theorem parts_of_whole {groups : List (List Pair)} {texts : List Text}
    (h : List.Forall₂ (fun group t => Json.Lists t (items group)) groups texts) :
    texts.flatMap (fun t => (ofText t).events) = (ofPairs groups.flatten).events
      ∧ texts.flatMap (fun t => (ofText t).notices) = (ofPairs groups.flatten).notices := by
  induction h with
  | nil => exact ⟨rfl, rfl⟩
  | cons hgroup _ ih =>
    simp only [List.flatMap_cons, List.flatten_cons, ofPairs_append, ofText_of_pairs hgroup, ih.1,
      ih.2, events_append, notices_append, and_self]

/-- Framing does not matter. Array texts of the parts of a list of pairs have together the events
and notices of an array text of the whole list; without a pair that has no event a frame is the
same but for the notice of that pair; a member after the last whole pair changes nothing; and the
UTF-8 bytes of a text are read as the text. -/
theorem framing_irrelevant :
    (∀ (groups : List (List Pair)) (texts : List Text) (whole : Text),
      List.Forall₂ (fun group t => Json.Lists t (items group)) groups texts →
      Json.Lists whole (items groups.flatten) →
      texts.flatMap (fun t => (ofMessage (.text t)).events) = (ofMessage (.text whole)).events
      ∧ texts.flatMap (fun t => (ofMessage (.text t)).notices)
        = (ofMessage (.text whole)).notices)
    ∧ (∀ (earlier : List Pair) (pair : Pair) (later : List Pair) (full short : Text),
      Json.Lists full (items (earlier ++ pair :: later)) →
      Json.Lists short (items (earlier ++ later)) → (∀ e, event pair ≠ .ok e) →
      (ofMessage (.text full)).events = (ofMessage (.text short)).events
      ∧ ∃ notice, event pair = .error notice
        ∧ (ofMessage (.text full)).notices
          = (ofPairs earlier).notices ++ notice :: (ofPairs later).notices
        ∧ (ofMessage (.text short)).notices
          = (ofPairs earlier).notices ++ (ofPairs later).notices)
    ∧ (∀ (ps : List Pair) (extra : Json) (even odd : Text), Json.Lists even (items ps) →
      Json.Lists odd (items ps ++ [extra]) → ofMessage (.text odd) = ofMessage (.text even))
    ∧ (∀ t : Text, t.encodable = true →
      ofMessage (.binary (Utf8.encode t)) = ofMessage (.text t)) := by
  refine ⟨fun groups texts whole hparts hwhole => ?_,
    fun earlier pair later full short hfull hshort hpair => ?_,
    fun ps extra even odd heven hodd => ?_, fun t ht => ?_⟩
  · have hevents := parts_of_whole hparts
    rw [← ofText_of_pairs hwhole] at hevents
    exact hevents
  · obtain ⟨notice, hnotice⟩ : ∃ notice, event pair = .error notice := by
      cases hevent : event pair with
      | error notice => exact ⟨notice, rfl⟩
      | ok e => exact absurd hevent (hpair e)
    have hwith : ofMessage (.text full)
        = ofPairs earlier ++ (⟨[], [notice]⟩ ++ ofPairs later) := by
      rw [← ofPairs_of_error hnotice, ← ofPairs_append, ← ofPairs_append]
      exact ofText_of_pairs hfull
    have hwithout : ofMessage (.text short) = ofPairs earlier ++ ofPairs later := by
      rw [← ofPairs_append]
      exact ofText_of_pairs hshort
    rw [hwith, hwithout]
    exact ⟨rfl, notice, hnotice, rfl, rfl⟩
  · calc ofMessage (.text odd) = ofPairs (pairs (items ps ++ [extra])) := ofText_of_lists hodd
      _ = ofPairs ps := by rw [pairs_items_append, show pairs [extra] = [] from rfl,
          List.append_nil]
      _ = ofMessage (.text even) := (ofText_of_pairs heven).symm
  · exact ofMessage_of_text (Utf8.decode?_encode ht)

/-- An import, an action that nobody knows, a payload that is too short, and an announcement. -/
def mixedPairs : List Pair :=
  [(.int 6, .array [.int 1, .array [.int 10, .text "a", .int 0, .int 0, .int 5]]), (.int 9, .null),
    (.int 6, .array [.int 1, .array []]),
    (.int 3, .array [.int 2, .array [.text "b", .null, .null, .null, .text "c"]])]

/-- The pairs in one message, in two, without the short payload, and with one member more. -/
def wholeText : Text :=
  "[6,[1,[10,\"a\",0,0,5]],9,null,6,[1,[]],3,[2,[\"b\",null,null,null,\"c\"]]]"

def firstText : Text := "[6,[1,[10,\"a\",0,0,5]],9,null]"

def secondText : Text := " [6, [1, []], 3, [2, [\"b\", null, null, null, \"c\"]]]"

def shortText : Text := "[6,[1,[10,\"a\",0,0,5]],9,null,3,[2,[\"b\",null,null,null,\"c\"]]]"

def oddText : Text :=
  "[6,[1,[10,\"a\",0,0,5]],9,null,6,[1,[]],3,[2,[\"b\",null,null,null,\"c\"]],3]"

/-- Cut after the second pair, without the short payload or with an action that has no payload, the
message has the same two events. -/
theorem framing_of_mixedPairs :
    (ofMessage (.text firstText)).events ++ (ofMessage (.text secondText)).events
      = (ofMessage (.text wholeText)).events
    ∧ (ofMessage (.text wholeText)).events = (ofMessage (.text shortText)).events
    ∧ ofMessage (.text oddText) = ofMessage (.text wholeText)
    ∧ ofMessage (.binary (Utf8.encode wholeText)) = ofMessage (.text wholeText)
    ∧ (ofMessage (.text wholeText)).events
      = [.blockImport ⟨1, 10, "a", 5⟩, .announce ⟨2, "b", "c"⟩] := by
  obtain ⟨hparts, hsilent, hodd, hbinary⟩ := framing_irrelevant
  have hwhole : Json.Lists wholeText (items mixedPairs) := by decide +kernel
  have hfirst : Json.Lists firstText (items (mixedPairs.take 2)) := by decide +kernel
  have hsecond : Json.Lists secondText (items (mixedPairs.drop 2)) := by decide +kernel
  refine ⟨?_, ?_, ?_, hbinary wholeText (by decide), by decide +kernel⟩
  · have h := hparts [mixedPairs.take 2, mixedPairs.drop 2] [firstText, secondText] wholeText
      (.cons hfirst (.cons hsecond .nil)) hwhole
    simpa using h.1
  · exact (hsilent (mixedPairs.take 2) _ (mixedPairs.drop 3) wholeText shortText hwhole
      (by decide +kernel) (fun e he => by cases he)).1
  · exact hodd mixedPairs (.int 3) wholeText oddText hwhole (by decide +kernel)

end Frame

end AuthorWatch
