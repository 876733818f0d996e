import BusTables.Log

/-!
# What a log tells about

In a log a message is known by its level and its text.  These tell what the message is about: the
texts about different things begin differently, or they stand at different levels
(`Topic.isOf_entry`).
-/

namespace BusTables

/-- What a message is about. -/
inductive Topic where
  | file
  | root
  /-- A disabled command is left out. -/
  | disabled
  /-- A command or a slave has been read. -/
  | read
  /-- A slave is left out of the tables. -/
  | idle
  | declared
  deriving DecidableEq, Repr

/-- What a message is about. -/
def Message.topic : Message → Topic
  | .processing _ => .file
  | .writing _ => .file
  | .rooted .. => .root
  | .disabled _ => .disabled
  | .commandRead _ => .read
  | .slaveRead .. => .read
  | .idle _ => .idle
  | .declaring _ => .declared

/-- A message as it stands in a log. -/
def Message.entry (message : Message) : Level × String := (message.level, message.text)

/-- A text begins with another one. -/
def beginsWith (start text : String) : Bool := start.toList.isPrefixOf text.toList

/-- The level and the beginning of a text tell what it is about. -/
def Topic.isOf (topic : Topic) (entry : Level × String) : Bool :=
  match topic with
  | .file => beginsWith "Processing file: " entry.2 || beginsWith "Writing file: " entry.2
  | .root => beginsWith "Document root is <" entry.2
  | .disabled => beginsWith "Skipping disabled CoE init command '" entry.2
  | .read => entry.1 == .debug &&
      (beginsWith "CoE command " entry.2 || beginsWith "Slave " entry.2)
  | .idle => entry.1 == .info && beginsWith "Slave " entry.2
  | .declared => beginsWith "Emitting " entry.2

/-- How the text of a message begins, whatever the message tells. -/
def Message.opening : Message → String
  | .processing _ => "Processing file: "
  | .writing _ => "Writing file: "
  | .rooted .. => "Document root is <"
  | .disabled _ => "Skipping disabled CoE init command '"
  | .commandRead _ => "CoE command "
  | .slaveRead .. => "Slave "
  | .idle _ => "Slave "
  | .declaring _ => "Emitting "

/-- The levels, the beginnings of texts, and what they are about. -/
def signatures : List (Level × String × Topic) :=
  [(.info, "Processing file: ", .file), (.info, "Writing file: ", .file),
    (.debug, "Document root is <", .root),
    (.info, "Skipping disabled CoE init command '", .disabled),
    (.debug, "CoE command ", .read), (.debug, "Slave ", .read), (.info, "Slave ", .idle),
    (.trace, "Emitting ", .declared)]

/-- The beginnings of texts. -/
def openings : List String := signatures.map (·.2.1)

theorem Message.signed (message : Message) :
    (message.level, message.opening, message.topic) ∈ signatures := by
  unfold level opening topic
  cases message <;> dsimp only <;> decide

theorem Message.opening_mem (message : Message) : message.opening ∈ openings :=
  List.mem_map_of_mem message.signed

theorem Message.exists_text (message : Message) :
    ∃ rest, message.text = message.opening ++ rest := by
  unfold text opening
  cases message with
  | processing file => exact ⟨file, rfl⟩
  | writing file => exact ⟨file, rfl⟩
  | rooted name path => exact ⟨_, String.append_assoc.trans String.append_assoc⟩
  | disabled comment => exact ⟨_, String.append_assoc⟩
  | commandRead command =>
      unfold commandText
      simp only [String.append_assoc]
      exact ⟨_, rfl⟩
  | slaveRead slave position =>
      unfold slaveText
      simp only [String.append_assoc]
      exact ⟨_, rfl⟩
  | idle address =>
      simp only [String.append_assoc]
      exact ⟨_, rfl⟩
  | declaring declaration =>
      unfold declarationText
      cases declaration <;> dsimp only <;> exact ⟨_, String.append_assoc⟩

/-- Of a longer text the beginning decides, unless it is part of what is asked for. -/
theorem beginsWith_append {start opening : String} (rest : String)
    (decided : beginsWith opening start = false ∨ start = opening) :
    beginsWith start (opening ++ rest) = beginsWith start opening := by
  rw [Bool.eq_iff_iff, beginsWith, beginsWith, List.isPrefixOf_iff_prefix,
    List.isPrefixOf_iff_prefix, String.toList_append]
  constructor
  · intro starts
    rcases List.prefix_or_prefix_of_prefix starts (List.prefix_append _ _) with within | beyond
    · exact within
    · rcases decided with apart | rfl
      · rw [beginsWith, List.isPrefixOf_iff_prefix.mpr beyond] at apart
        cases apart
      · exact List.prefix_rfl
  · exact fun within => within.trans (List.prefix_append _ _)

/-- No beginning of a text is part of another one. -/
theorem beginsWith_text {start : String} (among : start ∈ openings) (message : Message) :
    beginsWith start message.text = beginsWith start message.opening := by
  have apart : ∀ start ∈ openings, ∀ opening ∈ openings,
      beginsWith opening start = false ∨ start = opening := by
    decide
  obtain ⟨rest, equal⟩ := message.exists_text
  rw [equal, beginsWith_append rest (apart start among _ message.opening_mem)]

/-- Levels and beginnings tell apart what messages are about. -/
theorem isOf_signature (topic : Topic) :
    ∀ signature ∈ signatures,
      topic.isOf (signature.1, signature.2.1) = (signature.2.2 == topic) := by
  cases topic <;> decide

theorem isOf_entry (topic : Topic) (message : Message) :
    topic.isOf message.entry = (message.topic == topic) := by
  have begins (start : String) (among : start ∈ openings) :
      beginsWith start message.entry.2 = beginsWith start message.opening :=
    beginsWith_text among message
  have known : topic.isOf message.entry = topic.isOf (message.level, message.opening) := by
    unfold Topic.isOf
    cases topic with
    | file =>
      dsimp only
      rw [begins _ (by decide), begins _ (by decide)]
    | root => exact begins _ (by decide)
    | disabled => exact begins _ (by decide)
    | read =>
      dsimp only
      rw [begins _ (by decide), begins _ (by decide)]
      rfl
    | idle =>
      dsimp only
      rw [begins _ (by decide)]
      rfl
    | declared => exact begins _ (by decide)
  rw [known]
  exact isOf_signature topic _ message.signed

namespace Topic

variable (topic : Topic)

/-- The messages about something. -/
def among (messages : List Message) : List Message := messages.filter (·.topic == topic)

@[simp] theorem among_append (first later : List Message) :
    topic.among (first ++ later) = topic.among first ++ topic.among later :=
  List.filter_append first later

/-- In a log the messages about something are found. -/
theorem filter_entries (messages : List Message) :
    (messages.map Message.entry).filter topic.isOf = (topic.among messages).map Message.entry := by
  rw [among, List.filter_map]
  exact congrArg _ (List.filter_congr fun message _ => isOf_entry topic message)

end Topic

end BusTables
