import AuthorWatch.Proofs.Feed.Frame
import AuthorWatch.Proofs.Feed.Framing
import Mathlib.Data.List.ReduceOption

/-! The format of frames. A pair of the format announces a node, reports an import or has another
action; a frame of such pairs has exactly the events that they stand for. Whatever a message
is, its events have no negative numbers, and there is at most one for two members of its array. -/

namespace AuthorWatch

/-- The text that a value is. -/
def Json.text? : Json → Option Text
  | text t => some t
  | _ => none

namespace Frame

/-- What may stand for the identity of a node, and the text it is read as. -/
inductive Identity : Json → Text → Prop
  | text (t : Text) : Identity (.text t) t
  | texts (parts : List Json) : Identity (.array parts) (Text.join "," (parts.filterMap Json.text?))

/-- What may stand for a propagation time; null is one that the feed does not know. -/
inductive Time : Json → Int → Prop
  | known {n : Int} (h : 0 ≤ n) : Time (.int n) n
  | unknown : Time .null 0

/-- A pair of the format, and the event that it stands for. Values that are named by no more than
a letter may be anything, and both arrays may go on. -/
inductive Documented : Pair → Option Event → Prop
  | announce {ordinal : Int} {name nodeId : Text} {identity : Json} (x y z : Json)
      (details more : List Json) (hordinal : 0 ≤ ordinal) (hid : Identity identity nodeId) :
      Documented
        (.int 3, .array (.int ordinal :: .array (.text name :: x :: y :: z :: identity :: details)
          :: more))
        (some (.announce ⟨ordinal, name, nodeId⟩))
  | blockImport {ordinal height propagation : Int} {hash : Text} {time : Json} (x y : Json)
      (details more : List Json) (hordinal : 0 ≤ ordinal) (hheight : 0 ≤ height)
      (htime : Time time propagation) :
      Documented
        (.int 6, .array (.int ordinal :: .array (.int height :: .text hash :: x :: y :: time
          :: details) :: more))
        (some (.blockImport ⟨ordinal, height, hash, propagation⟩))
  | other {action : Json} (payload : Json) (hadded : action ≠ .int 3)
      (himported : action ≠ .int 6) : Documented (action, payload) none

/-! ### Payloads -/

theorem nodeIdOf_of_identity {v : Json} {t : Text} (h : Identity v t) : Action.nodeIdOf v = t := by
  cases h with
  | text => rfl
  | texts parts =>
    refine congrArg (Text.join ",") (List.filterMap_congr fun part _ => ?_)
    cases part <;> rfl

theorem propagation_of_time {v : Json} {n : Int} (h : Time v n) :
    Check.integerAtLeast 0 (if v.isNull then .int 0 else v) = .passed n := by
  cases h with
  | known h => exact Check.integerAtLeast_int h
  | unknown => rfl

theorem parts?_of_length {ordinal : Json} {details more : List Json} (h : 5 ≤ details.length) :
    Action.parts? (.array (ordinal :: .array details :: more)) = some (ordinal, details) := by
  rw [Action.parts?, if_neg (Nat.not_lt.mpr h)]

theorem check_announce {ordinal : Int} (h : 0 ≤ ordinal) (name nodeId : Text) :
    Announce.check [("ordinal", .int ordinal), ("name", .text name), ("node_id", .text nodeId)]
      = .passed ⟨ordinal, name, nodeId⟩ := by
  change Announce.mk <$> (Check.integerAtLeast 0 (.int ordinal)).under "ordinal"
    <*> .passed name <*> .passed nodeId = _
  rw [Check.integerAtLeast_int h]
  rfl

theorem check_blockImport {ordinal height propagation : Int} {time : Json} (ho : 0 ≤ ordinal)
    (hh : 0 ≤ height) (ht : Check.integerAtLeast 0 time = .passed propagation) (hash : Text) :
    BlockImport.check [("node_ordinal", .int ordinal), ("block_number", .int height),
        ("block_hash", .text hash), ("propagation_time", time)]
      = .passed ⟨ordinal, height, hash, propagation⟩ := by
  change BlockImport.mk <$> (Check.integerAtLeast 0 (.int ordinal)).under "node_ordinal"
    <*> (Check.integerAtLeast 0 (.int height)).under "block_number" <*> .passed hash
    <*> (Check.integerAtLeast 0 time).under "propagation_time" = _
  rw [Check.integerAtLeast_int ho, Check.integerAtLeast_int hh, ht]
  rfl

/-! ### Pairs -/

theorem ofJson?_eq_none {action : Json} (hadded : action ≠ .int 3) (himported : action ≠ .int 6) :
    Action.ofJson? action = none := by
  cases action with
  | int n =>
    have h3 : n ≠ 3 := fun h => hadded (h ▸ rfl)
    have h6 : n ≠ 6 := fun h => himported (h ▸ rfl)
    rw [Action.ofJson?, if_neg h3, if_neg h6]
  | _ => rfl

/-- A pair of the format is read as the event that it stands for. -/
theorem event_of_documented {pair : Pair} {outcome : Option Event} (h : Documented pair outcome) :
    (event pair).toOption = outcome := by
  cases h with
  | @announce ordinal name nodeId identity x y z details more hordinal hid =>
    have hread : Action.addedNode.read? (.array (.int ordinal
        :: .array (.text name :: x :: y :: z :: identity :: details) :: more))
        = some (.passed (.announce ⟨ordinal, name, nodeId⟩)) := by
      rw [Action.read?, parts?_of_length (by simp)]
      show some (Event.announce <$> Announce.check [("ordinal", .int ordinal), ("name", .text name),
        ("node_id", .text (Action.nodeIdOf identity))]) = _
      rw [nodeIdOf_of_identity hid, check_announce hordinal]
      rfl
    simp only [event, show Action.ofJson? (.int 3) = some .addedNode from rfl, hread]
    rfl
  | @blockImport ordinal height propagation hash time x y details more hordinal hheight htime =>
    have hread : Action.importedBlock.read? (.array (.int ordinal
        :: .array (.int height :: .text hash :: x :: y :: time :: details) :: more))
        = some (.passed (.blockImport ⟨ordinal, height, hash, propagation⟩)) := by
      rw [Action.read?, parts?_of_length (by simp)]
      show some (Event.blockImport <$> BlockImport.check [("node_ordinal", .int ordinal),
        ("block_number", .int height), ("block_hash", .text hash),
        ("propagation_time", if time.isNull then .int 0 else time)]) = _
      rw [check_blockImport hordinal hheight (propagation_of_time htime)]
      rfl
    simp only [event, show Action.ofJson? (.int 6) = some .importedBlock from rfl, hread]
    rfl
  | other payload hadded himported =>
    simp only [event, ofJson?_eq_none hadded himported]
    rfl

/-- A frame of such pairs has their events, in the order of the pairs. -/
theorem events_of_documented {ps : List Pair} {outcomes : List (Option Event)}
    (h : List.Forall₂ Documented ps outcomes) : (ofPairs ps).events = outcomes.reduceOption := by
  induction h with
  | nil => rfl
  | @cons pair outcome ps outcomes hpair _ ih =>
    show (pair :: ps).filterMap (fun pair => (event pair).toOption) = _
    rw [List.filterMap_cons, event_of_documented hpair]
    cases outcome with
    | none => exact ih
    | some e => rw [List.reduceOption_cons_of_some, ← ih]; rfl

theorem length_events_le (ps : List Pair) : (ofPairs ps).events.length ≤ ps.length :=
  List.length_filterMap_le _ _

/-- The format is read completely and exactly: a message with pairs of the format has exactly the
events that they stand for, in order. Conversely, no event of any message has a negative number,
the array of a message has twice as many members as events at least, and a message without an
array has no events. -/
theorem decodes_format :
    (∀ (ps : List Pair) (outcomes : List (Option Event)) (message : Message) (t : Text),
      List.Forall₂ Documented ps outcomes → message.text? = some t → Json.Lists t (items ps) →
      (ofMessage message).events = outcomes.reduceOption)
    ∧ (∀ (message : Message) (a : Announce), .announce a ∈ (ofMessage message).events →
      0 ≤ a.ordinal)
    ∧ (∀ (message : Message) (b : BlockImport), .blockImport b ∈ (ofMessage message).events →
      0 ≤ b.ordinal ∧ 0 ≤ b.height ∧ 0 ≤ b.propagation)
    ∧ (∀ (message : Message) (t : Text) (members : List Json), message.text? = some t →
      Json.Lists t members → (ofMessage message).events.length ≤ members.length / 2)
    ∧ (∀ message : Message, (∀ t members, message.text? = some t → ¬ Json.Lists t members) →
      (ofMessage message).events = []) := by
  refine ⟨fun ps outcomes message t hformat htext hlists => ?_,
    fun message a ha => (sound_of_ofMessage message _ ha).1,
    fun message b hb => (sound_of_ofMessage message _ hb).1,
    fun message t members htext hlists => ?_, fun message h => events_eq_nil_of_not_lists h⟩
  · rw [ofMessage_of_text htext, ofText_of_pairs hlists, events_of_documented hformat]
  · rw [ofMessage_of_text htext, ofText_of_lists hlists, ← length_pairs]
    exact length_events_le _

/-- Two announcements, an import that goes on and three pairs of other actions. -/
def formatText : Text :=
  "[3, [4, [\"a\", 0, 0, 0, [\"x\", 7, \"y\"], true]], true, 1, "
    ++ "6, [4, [10, \"b\", \x7b\x7d, [], null, 1], 2, 3], 6.0, [], 9, null, "
    ++ "3, [5, [\"c\", 0, 0, 0, \"z\"]]]"

/-- The text is read as its pairs of the format say, and within the bounds. -/
theorem decodes_formatText :
    (ofMessage (.text formatText)).events
        = [.announce ⟨4, "a", "x,y"⟩, .blockImport ⟨4, 10, "b", 0⟩, .announce ⟨5, "c", "z"⟩]
      ∧ 0 ≤ (4 : Int) ∧ (0 ≤ (4 : Int) ∧ 0 ≤ (10 : Int) ∧ 0 ≤ (0 : Int))
      ∧ (ofMessage (.text formatText)).events.length ≤ 6
      ∧ (ofMessage (.text "7")).events = [] := by
  have hread : Json.Lists formatText (items
      [(.int 3, .array [.int 4, .array [.text "a", .int 0, .int 0, .int 0,
          .array [.text "x", .int 7, .text "y"], .bool true]]),
        (.bool true, .int 1),
        (.int 6, .array [.int 4, .array [.int 10, .text "b", .object [], .array [], .null, .int 1],
          .int 2, .int 3]),
        (.float (.finite false (3 * 2 ^ 51) (-50)), .array []), (.int 9, .null),
        (.int 3, .array [.int 5, .array [.text "c", .int 0, .int 0, .int 0, .text "z"]])]) := by
    decide +kernel
  obtain ⟨hformat, hannounce, himport, hbound, hnone⟩ := decodes_format
  have hevents : (ofMessage (.text formatText)).events
      = [.announce ⟨4, "a", "x,y"⟩, .blockImport ⟨4, 10, "b", 0⟩, .announce ⟨5, "c", "z"⟩] := by
    refine hformat _ [some (.announce ⟨4, "a", "x,y"⟩), none, some (.blockImport ⟨4, 10, "b", 0⟩),
      none, none, some (.announce ⟨5, "c", "z"⟩)] (.text formatText) formatText ?_ rfl hread
    exact .cons (.announce _ _ _ _ _ (by decide) (.texts [.text "x", .int 7, .text "y"]))
      (.cons (.other _ (by simp) (by simp))
      (.cons (.blockImport _ _ _ _ (by decide) (by decide) .unknown)
      (.cons (.other _ (by simp) (by simp)) (.cons (.other _ (by simp) (by simp))
      (.cons (.announce _ _ _ _ _ (by decide) (.text _)) .nil)))))
  refine ⟨hevents, hannounce (.text formatText) ⟨4, "a", "x,y"⟩ (by simp [hevents]),
    himport (.text formatText) ⟨4, 10, "b", 0⟩ (by simp [hevents]),
    hbound (.text formatText) formatText _ rfl hread, hnone (.text "7") ?_⟩
  rintro t members ⟨⟩ hlists
  have hseven : Json.read .lenient "7" = .ok (.int 7) := by decide +kernel
  cases hseven.symm.trans hlists

end Frame

end AuthorWatch
