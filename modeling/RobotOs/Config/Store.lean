import RobotOs.Lib.Text
import Mathlib.Data.List.DropRight

/-!
# The configuration

The table of the config crate, the shell's `config set`, `config save` and
`config load`, and the load at boot.  A table is the list of its entries, each
with a key and a value; a lookup finds the first entry of a key.  The file is
`/fat/CONFIG.INI`; reading and writing it succeeds.

The loop of `cfg_load` is a drain loop: `look` is one look at the text, which
skips a space, a comment or a line without `=`, or reads an entry.  A saved table
is read back line by line (`cfgLoad_lines`), and each line as `reread` says, so
that a table survives exactly if no visible entry is left out, cut or trimmed.
-/

namespace RobotOs.Config

open RobotOs.Lib.Framing RobotOs.Lib.Text

def MAX_ENTRIES : Nat := 32
def MAX_KEY : Nat := 24
def MAX_VAL : Nat := 48

/-- The size of `SAVE_BUF`, `LOAD_BUF` and `CFG_BUF`. -/
def BUF_SIZE : Nat := 1024

/-- A key and its value. -/
abbrev Entry := Bytes × Bytes

abbrev Table := List Entry

variable {t : Table} {key val : Bytes} {e : Entry}

/-! ## The store -/

def rtrim (s : Bytes) : Bytes := s.rdropWhile isBlank

/-- The entry of a key and a value as they stand in the text, unless the key is empty. -/
def entryOf (key val : Bytes) : Option Entry :=
  if (rtrim key).take MAX_KEY = [] then none
  else some ((rtrim key).take MAX_KEY, (rtrim val).take MAX_VAL)

/-- One look of `cfg_load` at the rest of the text. -/
def look (_ : Unit) : Bytes → Step Unit Entry
  | [] => .stop ()
  | b :: rest =>
    if isSpace b then .skip 1 ()
    else if b = HASH then .skip ((b :: rest).takeWhile (· ≠ NEWLINE)).length ()
    else
      let key := (b :: rest).takeWhile isKeyByte
      match (b :: rest).dropWhile isKeyByte with
      | [] => .stop ()
      | c :: after =>
        if c ≠ EQUALS then .skip key.length ()
        else
          let val := after.takeWhile isValByte
          match entryOf key val with
          | none => .skip (key.length + 1 + val.length) ()
          | some entry => .emit entry (key.length + 1 + val.length) ()

def cfgLoad (data : Bytes) : Table := (drainAll look () data).1.take MAX_ENTRIES

def cfgGet (t : Table) (key : Bytes) : Option Bytes := (t.find? (·.1 = key)).map Prod.snd

/-- The first entry of the key gets the value. -/
def assign (key val : Bytes) : Table → Table
  | [] => []
  | e :: t => if e.1 = key then (key, val) :: t else e :: assign key val t

def cfgSet (t : Table) (key val : Bytes) : Bool × Table :=
  if key.length > MAX_KEY ∨ val.length > MAX_VAL then (false, t)
  else if ∃ e ∈ t, e.1 = key then (true, assign key val t)
  else if t.length < MAX_ENTRIES then (true, t ++ [(key, val)])
  else (false, t)

/-- The line of an entry, without its line end. -/
def line (e : Entry) : Bytes := e.1 ++ EQUALS :: e.2

/-- `cfg_serialize` into a buffer with `room` bytes left. -/
def cfgSerialize (room : Nat) : Table → Bytes
  | [] => []
  | e :: t =>
    if (line e).length + 1 > room then []
    else line e ++ NEWLINE :: cfgSerialize (room - ((line e).length + 1)) t

/-- `cfg_defaults`. -/
def cfgDefaults : Table :=
  [(ascii "ml_enabled", ascii "1"), (ascii "sched_hz", ascii "100"),
    (ascii "watchdog_ms", ascii "500"), (ascii "motor_max_speed", ascii "100"),
    (ascii "behavior_server_ip", ascii "0.0.0.0"), (ascii "behavior_server_port", ascii "0"),
    (ascii "behavior_l1_enabled", ascii "1"), (ascii "behavior_l2_enabled", ascii "1"),
    (ascii "behavior_l3_enabled", ascii "1"), (ascii "pid_kp", ascii "1"),
    (ascii "pid_ki", ascii "0"), (ascii "pid_kd", ascii "0"), (ascii "ticks_per_m", ascii "1000"),
    (ascii "wheel_base_mm", ascii "200"), (ascii "net_ip", ascii "10.0.2.15"),
    (ascii "net_gateway", ascii "10.0.2.2"), (ascii "net_mask", ascii "255.255.255.0"),
    (ascii "imu_offset_ax", ascii "0"), (ascii "imu_offset_ay", ascii "0"),
    (ascii "imu_offset_az", ascii "0")].foldl (fun t e => (cfgSet t e.1 e.2).2) []

/-! ## The file -/

/-- `config save`: nothing is written for an empty table. -/
def save (t : Table) (file : Option Bytes) : Option Bytes :=
  if cfgSerialize BUF_SIZE t = [] then file else some (cfgSerialize BUF_SIZE t)

/-- The text that is read from the file, or what is there instead. -/
def readFile (file : Option Bytes) (otherwise : Table) : Table :=
  match file with
  | none => otherwise
  | some text => if text = [] then otherwise else cfgLoad (text.take BUF_SIZE)

/-- `config load`, which leaves the table alone when there is no text. -/
def load (t : Table) (file : Option Bytes) : Table := readFile file t

/-- The table after a reboot. -/
def reboot (file : Option Bytes) : Table := readFile file cfgDefaults

/-- A word of a shell line: `parse_args` splits it at blanks, and the line has no line end. -/
structure Word where
  bytes : Bytes
  nonempty : bytes ≠ []
  plain : ∀ b ∈ bytes, isSpace b = false

/-- How a table comes about. -/
inductive Op where
  | load (text : Bytes)
  | defaults
  | set (key val : Word)

def step (t : Table) : Op → Table
  | .load text => cfgLoad text
  | .defaults => cfgDefaults
  | .set key val => (cfgSet t key.bytes val.bytes).2

/-- The table after a history of loads and commands. -/
def tableAfter (ops : List Op) : Table := ops.foldl step []

/-- After a save, a load and a reboot find what is there for every key. -/
def Survives (t : Table) (file : Option Bytes) : Prop :=
  ∀ key, cfgGet (load t (save t file)) key = cfgGet t key ∧
    cfgGet (reboot (save t file)) key = cfgGet t key

/-! ## The entries of a table -/

/-- What holds of an entry, whether it was read from a text or set by a command. -/
structure Stored (e : Entry) : Prop where
  nonempty : e.1 ≠ []
  key_start : ∀ b ∈ e.1.head?, isSpace b = false
  key_line : NEWLINE ∉ e.1
  -- A text gives no key with `=`, and a command none with a carriage return.
  key_mixed : EQUALS ∉ e.1 ∨ CARRIAGE_RETURN ∉ e.1
  key_length : e.1.length ≤ MAX_KEY
  val_bytes : ∀ b ∈ e.2, isValByte b = true
  val_length : e.2.length ≤ MAX_VAL

theorem rtrim_sublist (s : Bytes) : (rtrim s).Sublist s := (List.rdropWhile_prefix _ s).sublist

theorem isKeyByte_iff (b : UInt8) : isKeyByte b = true ↔ b ≠ EQUALS ∧ b ≠ NEWLINE := by
  simp [isKeyByte]

theorem isValByte_iff (b : UInt8) : isValByte b = true ↔ b ≠ NEWLINE ∧ b ≠ CARRIAGE_RETURN := by
  simp [isValByte]

/-- A key that is read starts where its text starts. -/
theorem head_rtrim_take (h : (rtrim key).take MAX_KEY ≠ []) :
    ((rtrim key).take MAX_KEY).head? = key.head? := by
  obtain ⟨rest, hrest⟩ := (List.take_prefix MAX_KEY (rtrim key)).trans
    (List.rdropWhile_prefix isBlank key)
  obtain ⟨b, bs, hb⟩ := List.exists_cons_of_ne_nil h
  rw [hb] at hrest ⊢
  rw [← hrest]
  rfl

/-- What a round of `cfg_load` reads can be stored. -/
theorem look_stored (u : Unit) (buf : Bytes) (e : Entry) (n : Nat) (u' : Unit)
    (h : look u buf = .emit e n u') : Stored e := by
  cases buf with
  | nil => simp [look] at h
  | cons b rest =>
    simp only [look] at h
    by_cases hspace : isSpace b = true
    · simp [hspace] at h
    rw [if_neg hspace] at h
    by_cases hhash : b = HASH
    · simp [hhash] at h
    rw [if_neg hhash] at h
    cases hdrop : (b :: rest).dropWhile isKeyByte with
    | nil => simp [hdrop] at h
    | cons c after =>
      simp only [hdrop, ne_eq, ite_not] at h
      by_cases hc : c = EQUALS
      · rw [if_pos hc, entryOf] at h
        by_cases hkey : (rtrim ((b :: rest).takeWhile isKeyByte)).take MAX_KEY = []
        · simp [hkey] at h
        · rw [if_neg hkey] at h
          simp only [Step.emit.injEq] at h
          obtain ⟨rfl, -, -⟩ := h
          have hmem : ∀ a ∈ (rtrim ((b :: rest).takeWhile isKeyByte)).take MAX_KEY,
              isKeyByte a = true := fun a ha =>
            List.mem_takeWhile_imp ((rtrim_sublist _).subset (List.mem_of_mem_take ha))
          refine ⟨hkey, ?_, ?_, .inl ?_, ?_, ?_, ?_⟩
          · intro a ha
            rw [head_rtrim_take hkey, List.head?_takeWhile] at ha
            have hab : b = a ∧ isKeyByte a = true := by simpa using ha
            simpa [hab.1] using hspace
          · exact fun ha => ((isKeyByte_iff _).1 (hmem _ ha)).2 rfl
          · exact fun ha => ((isKeyByte_iff _).1 (hmem _ ha)).1 rfl
          · exact List.length_take_le _ _
          · exact fun a ha => List.mem_takeWhile_imp
              ((rtrim_sublist _).subset (List.mem_of_mem_take ha))
          · exact List.length_take_le _ _
      · simp [hc] at h

/-- A table that the code can hold. -/
structure StoredTable (t : Table) : Prop where
  entries : ∀ e ∈ t, Stored e
  length : t.length ≤ MAX_ENTRIES

theorem storedTable_cfgLoad (data : Bytes) : StoredTable (cfgLoad data) :=
  ⟨fun e he => drainAll_emits look look_stored () data e (List.mem_of_mem_take he),
    List.length_take_le _ _⟩

theorem mem_assign (he : e ∈ assign key val t) : e ∈ t ∨ e = (key, val) := by
  induction t with
  | nil => simp [assign] at he
  | cons d t ih =>
    rw [assign] at he
    split at he
    · rcases List.mem_cons.1 he with rfl | he
      · exact .inr rfl
      · exact .inl (List.mem_cons_of_mem _ he)
    · rcases List.mem_cons.1 he with rfl | he
      · exact .inl List.mem_cons_self
      · exact (ih he).imp (List.mem_cons_of_mem _) id

@[simp] theorem length_assign (key val : Bytes) (t : Table) :
    (assign key val t).length = t.length := by
  induction t with
  | nil => rfl
  | cons d t ih =>
    rw [assign]
    split
    · rfl
    · simp [ih]

/-- `cfg_set` keeps the table in order, if the new entry is one unless it is too long. -/
theorem storedTable_cfgSet (ht : StoredTable t)
    (h : key.length ≤ MAX_KEY → val.length ≤ MAX_VAL → Stored (key, val)) :
    StoredTable (cfgSet t key val).2 := by
  unfold cfgSet
  by_cases hlen : key.length > MAX_KEY ∨ val.length > MAX_VAL
  · rw [if_pos hlen]
    exact ht
  rw [if_neg hlen]
  have hnew : Stored (key, val) := h (by omega) (by omega)
  by_cases hfound : ∃ e ∈ t, e.1 = key
  · rw [if_pos hfound]
    refine ⟨fun e he => ?_, by simpa using ht.length⟩
    rcases mem_assign he with he | rfl
    · exact ht.entries e he
    · exact hnew
  rw [if_neg hfound]
  by_cases hroom : t.length < MAX_ENTRIES
  · rw [if_pos hroom]
    refine ⟨fun e he => ?_, ?_⟩
    · rcases List.mem_append.1 he with he | he
      · exact ht.entries e he
      · rw [List.mem_singleton.1 he]
        exact hnew
    · rw [List.length_append]
      exact hroom
  · rw [if_neg hroom]
    exact ht

theorem stored_words (key val : Word) (hkey : key.bytes.length ≤ MAX_KEY)
    (hval : val.bytes.length ≤ MAX_VAL) : Stored (key.bytes, val.bytes) := by
  have hnot : ∀ (w : Word) (b : UInt8), isSpace b = true → b ∉ w.bytes := by
    intro w b hb hmem
    rw [w.plain b hmem] at hb
    cases hb
  refine ⟨key.nonempty, fun b hb => key.plain b (List.mem_of_mem_head? hb), hnot key _ rfl,
    .inr (hnot key _ rfl), hkey, fun b hb => (isValByte_iff b).2 ⟨?_, ?_⟩, hval⟩
  · intro heq
    exact hnot val _ rfl (heq ▸ hb)
  · intro heq
    exact hnot val _ rfl (heq ▸ hb)

/-- The check of a word. -/
def isWord (bytes : Bytes) : Bool := !bytes.isEmpty && bytes.all fun b => !isSpace b

theorem exists_word {bytes : Bytes} (h : isWord bytes = true) : ∃ w : Word, w.bytes = bytes := by
  obtain ⟨hne, hall⟩ := Bool.and_eq_true_iff.1 h
  refine ⟨⟨bytes, by simpa using hne, fun b hb => ?_⟩, rfl⟩
  simpa using List.all_eq_true.1 hall b hb

theorem storedTable_cfgDefaults : StoredTable cfgDefaults := by
  have hall : (cfgDefaults.all fun e => isWord e.1 && isWord e.2 && e.1.length ≤ MAX_KEY &&
    e.2.length ≤ MAX_VAL) = true := by decide +kernel
  refine ⟨fun e he => ?_, by decide +kernel⟩
  have hentry := List.all_eq_true.1 hall e he
  simp only [Bool.and_eq_true, decide_eq_true_eq] at hentry
  obtain ⟨⟨⟨hkey, hval⟩, hkeyLength⟩, hvalLength⟩ := hentry
  obtain ⟨key, hkey⟩ := exists_word hkey
  obtain ⟨val, hval⟩ := exists_word hval
  rw [← hkey] at hkeyLength
  rw [← hval] at hvalLength
  have hstored := stored_words key val hkeyLength hvalLength
  rwa [hkey, hval] at hstored

/-- Every table that comes about is in order. -/
theorem storedTable_tableAfter (ops : List Op) : StoredTable (tableAfter ops) := by
  refine List.foldlRecOn _ _ ⟨by simp, by decide⟩ fun t ht op _ => ?_
  cases op with
  | load text => exact storedTable_cfgLoad text
  | defaults => exact storedTable_cfgDefaults
  | set key val => exact storedTable_cfgSet ht (stored_words key val)

/-! ## Reading a saved line -/

/-- A key that a load can find: its line is no comment, and it is read up to its end. -/
structure Clean (key : Bytes) : Prop where
  no_equals : EQUALS ∉ key
  no_comment : key.head? ≠ some HASH
  trimmed : rtrim key = key

theorem drainAll_newline (rest : Bytes) :
    drainAll look () (NEWLINE :: rest) = drainAll look () rest :=
  drainAll_skip look (List.cons_ne_nil _ _) one_ne_zero rfl

/-- A round at a key and a value, with the line end after them. -/
theorem drainAll_entry (hkey : ∀ b ∈ key, isKeyByte b = true) (hval : ∀ b ∈ val, isValByte b = true)
    (hstart : ∀ b ∈ (key ++ [EQUALS]).head?, isSpace b = false ∧ b ≠ HASH) (rest : Bytes) :
    (drainAll look () (key ++ EQUALS :: (val ++ NEWLINE :: rest))).1 =
      (entryOf key val).toList ++ (drainAll look () rest).1 := by
  obtain ⟨hkeyTake, hkeyDrop⟩ := takeWhile_append_stop hkey
    (show isKeyByte EQUALS = false by decide) (val ++ NEWLINE :: rest)
  obtain ⟨hvalTake, -⟩ := takeWhile_append_stop hval
    (show isValByte NEWLINE = false by decide) rest
  have hdrop : (key ++ EQUALS :: (val ++ NEWLINE :: rest)).drop (key.length + 1 + val.length) =
      NEWLINE :: rest := by
    rw [show key ++ EQUALS :: (val ++ NEWLINE :: rest) =
      (key ++ [EQUALS] ++ val) ++ NEWLINE :: rest by simp]
    exact List.drop_left' (by simp; omega)
  obtain ⟨b, bs, hb, hne⟩ : ∃ b bs, key ++ EQUALS :: (val ++ NEWLINE :: rest) = b :: bs ∧
      isSpace b = false ∧ b ≠ HASH := by
    cases key with
    | nil => exact ⟨_, _, rfl, hstart EQUALS rfl⟩
    | cons b key => exact ⟨_, _, rfl, hstart b rfl⟩
  have hlook : look () (key ++ EQUALS :: (val ++ NEWLINE :: rest)) =
      match entryOf key val with
      | none => .skip (key.length + 1 + val.length) ()
      | some entry => .emit entry (key.length + 1 + val.length) () := by
    rw [hb, look, hne.1, if_neg hne.2, ← hb]
    simp only [hkeyTake, hkeyDrop, hvalTake, Bool.false_eq_true, if_false, ne_eq,
      not_true_eq_false]
  cases hentry : entryOf key val with
  | none =>
    rw [hentry] at hlook
    rw [drainAll_skip look (by simp) (by omega) hlook, hdrop, drainAll_newline]
    rfl
  | some entry =>
    rw [hentry] at hlook
    rw [drainAll_emit look (by simp) (by omega) hlook, hdrop, drainAll_newline]
    rfl

/-- A line that starts with `#` is skipped. -/
theorem drainAll_comment {text : Bytes} (hhash : text.head? = some HASH)
    (hline : ∀ b ∈ text, b ≠ NEWLINE) (rest : Bytes) :
    drainAll look () (text ++ NEWLINE :: rest) = drainAll look () rest := by
  obtain ⟨bs, rfl⟩ : ∃ bs, text = HASH :: bs := by
    cases text with
    | nil => cases hhash
    | cons b bs => exact ⟨bs, by simpa using hhash⟩
  have htake : (HASH :: bs ++ NEWLINE :: rest).takeWhile (· ≠ NEWLINE) = HASH :: bs :=
    (takeWhile_append_stop (fun b hb => decide_eq_true (hline b hb)) (by simp) rest).1
  have hlook : look () (HASH :: bs ++ NEWLINE :: rest) = .skip (HASH :: bs).length () := by
    rw [List.cons_append, look, if_neg (by decide), if_pos rfl, ← List.cons_append, htake]
  rw [drainAll_skip look (by simp) (by simp) hlook, List.drop_left, drainAll_newline]

theorem entryOf_clean (hlen : key.length ≤ MAX_KEY) (hkey : ∀ b ∈ key, isKeyByte b = true)
    (hstart : key.head? ≠ some HASH) (h : entryOf key val = some e) : Clean e.1 := by
  have htake : (rtrim key).take MAX_KEY = rtrim key :=
    List.take_of_length_le ((rtrim_sublist key).length_le.trans hlen)
  rw [entryOf] at h
  split at h
  · cases h
  · rename_i hne
    cases h
    refine ⟨fun hmem => ?_, ?_, ?_⟩
    · exact ((isKeyByte_iff _).1 (hkey _ ((rtrim_sublist key).subset
        (List.mem_of_mem_take hmem)))).1 rfl
    · rw [head_rtrim_take hne]
      exact hstart
    · rw [htake]
      exact List.rdropWhile_idempotent isBlank key

/-- The text of a stored entry's line, split at its first `=`. -/
theorem line_split (he : Stored e) : ∃ key val, line e = key ++ EQUALS :: val ∧
    key <+: e.1 ∧ (∀ b ∈ key, isKeyByte b = true) ∧ (∀ b ∈ val, isValByte b = true) ∧
    (EQUALS ∉ e.1 → key = e.1 ∧ val = e.2) := by
  have hbyte : ∀ b ∈ e.1, b ≠ EQUALS → isKeyByte b = true := fun b hb hne =>
    (isKeyByte_iff b).2 ⟨hne, fun h => he.key_line (h ▸ hb)⟩
  by_cases hmem : EQUALS ∈ e.1
  · obtain ⟨key, rest, hkey, hnot⟩ := List.eq_append_cons_of_mem hmem
    have hcr := he.key_mixed.resolve_left (not_not_intro hmem)
    refine ⟨key, rest ++ EQUALS :: e.2, by simp [line, hkey], ⟨_, hkey.symm⟩, ?_, ?_,
      fun h => absurd hmem h⟩
    · intro b hb
      exact hbyte b (hkey ▸ List.mem_append_left _ hb) (fun h => hnot (h ▸ hb))
    · intro b hb
      rcases List.mem_append.1 hb with hb | hb
      · have hb' : b ∈ e.1 := hkey ▸ List.mem_append_right _ (List.mem_cons_of_mem _ hb)
        exact (isValByte_iff b).2 ⟨fun h => he.key_line (h ▸ hb'), fun h => hcr (h ▸ hb')⟩
      · rcases List.mem_cons.1 hb with rfl | hb
        · decide
        · exact he.val_bytes b hb
  · exact ⟨e.1, e.2, rfl, List.prefix_rfl, fun b hb => hbyte b hb (fun h => hmem (h ▸ hb)),
      he.val_bytes, fun _ => ⟨rfl, rfl⟩⟩

/-- What a load makes of the line of a stored entry, whatever follows it. -/
theorem read_line (he : Stored e) : ∃ r : Option Entry,
    (∀ rest, (drainAll look () (line e ++ NEWLINE :: rest)).1 =
      r.toList ++ (drainAll look () rest).1) ∧
    (∀ f ∈ r, Clean f.1) ∧ (Clean e.1 → r = some (e.1, rtrim e.2)) := by
  obtain ⟨b, bs, hb⟩ := List.exists_cons_of_ne_nil he.nonempty
  by_cases hhash : e.1.head? = some HASH
  · refine ⟨none, fun rest => ?_, by simp, fun h => absurd hhash h.no_comment⟩
    rw [drainAll_comment]
    · rfl
    · rw [line, hb, List.cons_append, List.head?_cons, ← hhash, hb]
      rfl
    · intro a ha heq
      subst heq
      rcases List.mem_append.1 ha with ha | ha
      · exact he.key_line ha
      · rcases List.mem_cons.1 ha with ha | ha
        · exact absurd ha (by decide)
        · exact ((isValByte_iff _).1 (he.val_bytes _ ha)).1 rfl
  · obtain ⟨key, val, hline, hpre, hkey, hval, hplain⟩ := line_split he
    have hstart : ∀ a ∈ (key ++ [EQUALS]).head?, isSpace a = false ∧ a ≠ HASH := by
      intro a ha
      cases key with
      | nil =>
        cases ha
        decide
      | cons c key =>
        obtain ⟨rest, hrest⟩ := hpre
        have hac : e.1.head? = some a := by
          rw [← hrest]
          exact ha
        exact ⟨he.key_start a hac, fun h => hhash (h ▸ hac)⟩
    refine ⟨entryOf key val, fun rest => ?_, fun f hf => ?_, fun hclean => ?_⟩
    · rw [hline, List.append_assoc, List.cons_append]
      exact drainAll_entry hkey hval hstart rest
    · refine entryOf_clean (hpre.length_le.trans he.key_length) hkey ?_ hf
      intro h
      cases key with
      | nil => cases h
      | cons c key => exact (hstart HASH (by simpa using h)).2 rfl
    · obtain ⟨rfl, rfl⟩ := hplain hclean.no_equals
      rw [entryOf, hclean.trimmed, List.take_of_length_le he.key_length, if_neg he.nonempty,
        List.take_of_length_le ((rtrim_sublist _).length_le.trans he.val_length)]

/-! ## Reading a saved table -/

/-- The text of a list of entries. -/
def lines (t : Table) : Bytes := t.flatMap fun e => line e ++ [NEWLINE]

theorem lines_cons (e : Entry) (t : Table) : lines (e :: t) = line e ++ NEWLINE :: lines t := by
  simp [lines]

/-- A load finds clean keys only. -/
theorem clean_of_mem_lines (ht : ∀ e ∈ t, Stored e) :
    ∀ f ∈ (drainAll look () (lines t)).1, Clean f.1 := by
  induction t with
  | nil => simp [lines]
  | cons e t ih =>
    obtain ⟨r, hread, hclean, -⟩ := read_line (ht e List.mem_cons_self)
    intro f hf
    rw [lines_cons, hread] at hf
    rcases List.mem_append.1 hf with hf | hf
    · exact hclean f (by simpa using hf)
    · exact ih (fun e he => ht e (List.mem_cons_of_mem _ he)) f hf

/-- Entries with clean keys are read back, with their values trimmed. -/
theorem read_lines (ht : ∀ e ∈ t, Stored e) (hclean : ∀ e ∈ t, Clean e.1) :
    (drainAll look () (lines t)).1 = t.map fun e => (e.1, rtrim e.2) := by
  induction t with
  | nil => rfl
  | cons e t ih =>
    obtain ⟨r, hread, -, hr⟩ := read_line (ht e List.mem_cons_self)
    rw [lines_cons, hread, hr (hclean e List.mem_cons_self),
      ih (fun e he => ht e (List.mem_cons_of_mem _ he))
        (fun e he => hclean e (List.mem_cons_of_mem _ he))]
    rfl

/-- The entries that are saved. -/
def fitting (room : Nat) : Table → Table
  | [] => []
  | e :: t =>
    if (line e).length + 1 > room then [] else e :: fitting (room - ((line e).length + 1)) t

/-- The bytes that a table takes when all of it is saved. -/
def textLength (t : Table) : Nat := (t.map fun e => (line e).length + 1).sum

theorem cfgSerialize_eq (room : Nat) (t : Table) :
    cfgSerialize room t = lines (fitting room t) := by
  induction t generalizing room with
  | nil => rfl
  | cons e t ih =>
    rw [cfgSerialize, fitting]
    split
    · rfl
    · rw [lines_cons, ih]

theorem length_cfgSerialize_le (room : Nat) (t : Table) : (cfgSerialize room t).length ≤ room := by
  induction t generalizing room with
  | nil => exact Nat.zero_le _
  | cons e t ih =>
    rw [cfgSerialize]
    split
    · exact Nat.zero_le _
    · have := ih (room - ((line e).length + 1))
      simp only [List.length_append, List.length_cons]
      omega

theorem fitting_isPrefix (room : Nat) (t : Table) : fitting room t <+: t := by
  induction t generalizing room with
  | nil => exact List.prefix_rfl
  | cons e t ih =>
    rw [fitting]
    split
    · exact List.nil_prefix
    · exact (List.prefix_cons_inj e).2 (ih _)

/-- An entry whose text ends within the buffer is saved. -/
theorem fitting_of_le {room : Nat} {a b : Table} (h : textLength (a ++ [e]) ≤ room) :
    ∃ c, fitting room (a ++ e :: b) = a ++ e :: c := by
  induction a generalizing room with
  | nil =>
    have hle : (line e).length + 1 ≤ room := by simpa [textLength] using h
    refine ⟨fitting (room - ((line e).length + 1)) b, ?_⟩
    rw [List.nil_append, fitting, if_neg (by omega), List.nil_append]
  | cons d a ih =>
    have hsum : (line d).length + 1 + textLength (a ++ [e]) ≤ room := by
      simpa [textLength] using h
    obtain ⟨c, hc⟩ := @ih (room - ((line d).length + 1)) (by omega)
    exact ⟨c, by rw [List.cons_append, fitting, if_neg (by omega), hc]; rfl⟩

/-- An entry whose text ends beyond the buffer is left out, with all after it. -/
theorem fitting_of_lt {room : Nat} {a b : Table} (h : room < textLength (a ++ [e])) :
    fitting room (a ++ e :: b) <+: a := by
  induction a generalizing room with
  | nil =>
    have hlt : room < (line e).length + 1 := by simpa [textLength] using h
    rw [List.nil_append, fitting, if_pos (by omega)]
  | cons d a ih =>
    have hsum : room < (line d).length + 1 + textLength (a ++ [e]) := by
      simpa [textLength] using h
    rw [List.cons_append, fitting]
    split
    · exact List.nil_prefix
    · exact (List.prefix_cons_inj d).2 (ih (by omega))

/-- A table that is not empty is saved, and its text is read back whole. -/
theorem readFile_save (ht : StoredTable t) (hne : t ≠ []) (file : Option Bytes)
    (otherwise : Table) :
    readFile (save t file) otherwise = (drainAll look () (lines (fitting BUF_SIZE t))).1.take
      MAX_ENTRIES := by
  obtain ⟨e, t, rfl⟩ := List.exists_cons_of_ne_nil hne
  have he := ht.entries e List.mem_cons_self
  have hroom : ¬ (line e).length + 1 > BUF_SIZE := by
    have h₁ : e.1.length ≤ 24 := he.key_length
    have h₂ : e.2.length ≤ 48 := he.val_length
    simp only [line, BUF_SIZE, List.length_append, List.length_cons]
    omega
  have htext : cfgSerialize BUF_SIZE (e :: t) ≠ [] := by
    rw [cfgSerialize, if_neg hroom]
    simp
  rw [save, if_neg htext]
  show (if cfgSerialize BUF_SIZE (e :: t) = [] then otherwise
    else cfgLoad ((cfgSerialize BUF_SIZE (e :: t)).take BUF_SIZE)) = _
  rw [if_neg htext, List.take_of_length_le (length_cfgSerialize_le _ _), cfgSerialize_eq]
  rfl

/-! ## Lookups -/

theorem cfgGet_eq_some_iff : cfgGet t key = some val ↔
    ∃ a b, t = a ++ (key, val) :: b ∧ key ∉ a.map Prod.fst := by
  rw [cfgGet, Option.map_eq_some_iff]
  constructor
  · rintro ⟨⟨k, v⟩, hfind, rfl⟩
    obtain ⟨hk, a, b, rfl, ha⟩ := List.find?_eq_some_iff_append.1 hfind
    have hkey : k = key := by simpa using hk
    subst hkey
    refine ⟨a, b, rfl, fun hmem => ?_⟩
    obtain ⟨e, he, hek⟩ := List.mem_map.1 hmem
    simpa [hek] using ha e he
  · rintro ⟨a, b, rfl, ha⟩
    refine ⟨(key, val), List.find?_eq_some_iff_append.2 ⟨by simp, a, b, rfl, ?_⟩, rfl⟩
    intro e he
    have hne : e.1 ≠ key := fun h => ha (List.mem_map.2 ⟨e, he, h⟩)
    simpa using hne

theorem cfgGet_eq_none_iff : cfgGet t key = none ↔ ∀ e ∈ t, e.1 ≠ key := by
  simp [cfgGet]

theorem cfgGet_trimmed (t : Table) (key : Bytes) :
    cfgGet (t.map fun e => (e.1, rtrim e.2)) key = (cfgGet t key).map rtrim := by
  rw [cfgGet, cfgGet, List.find?_map, Option.map_map, Option.map_map]
  rfl

/-! ## What survives -/

/-- What a table and the file before the save must meet. -/
structure Saveable (t : Table) (file : Option Bytes) : Prop where
  /-- An empty table is not written, so the file must hold a text without entries. -/
  empty : t = [] → ∃ text, file = some text ∧ text ≠ [] ∧ cfgLoad (text.take BUF_SIZE) = []
  /-- The first entry of a key ends within the buffer, its line is read up to the `=` that
  follows the key, and no blank is trimmed from it. -/
  visible : ∀ a k v b, t = a ++ (k, v) :: b → k ∉ a.map Prod.fst →
    textLength (a ++ [(k, v)]) ≤ BUF_SIZE ∧ Clean k ∧ rtrim v = v

/-- Every key of a table has a first entry. -/
theorem exists_visible (he : e ∈ t) : ∃ v, cfgGet t e.1 = some v := by
  cases hget : cfgGet t e.1 with
  | none => exact absurd rfl (cfgGet_eq_none_iff.1 hget e he)
  | some v => exact ⟨v, rfl⟩

/-- A saved table with clean keys, as a load finds it. -/
theorem readFile_save_clean (ht : StoredTable t) (hne : t ≠ []) (hclean : ∀ e ∈ t, Clean e.1)
    (file : Option Bytes) (otherwise : Table) (key : Bytes) :
    cfgGet (readFile (save t file) otherwise) key =
      (cfgGet (fitting BUF_SIZE t) key).map rtrim := by
  have hpre := fitting_isPrefix BUF_SIZE t
  rw [readFile_save ht hne, read_lines (fun e he => ht.entries e (hpre.subset he))
    (fun e he => hclean e (hpre.subset he)), List.take_of_length_le, cfgGet_trimmed]
  rw [List.length_map]
  exact hpre.length_le.trans ht.length

/-- A table that meets the condition is found again. -/
theorem readFile_save_of_visible {file : Option Bytes} (ht : StoredTable t) (hne : t ≠ [])
    (h : Saveable t file) (otherwise : Table) (key : Bytes) :
    cfgGet (readFile (save t file) otherwise) key = cfgGet t key := by
  have hclean : ∀ e ∈ t, Clean e.1 := by
    intro e he
    obtain ⟨v, hv⟩ := exists_visible he
    obtain ⟨a, b, hab, ha⟩ := cfgGet_eq_some_iff.1 hv
    exact (h.visible a e.1 v b hab ha).2.1
  rw [readFile_save_clean ht hne hclean]
  cases hget : cfgGet t key with
  | none =>
    have hnone : cfgGet (fitting BUF_SIZE t) key = none := cfgGet_eq_none_iff.2 fun e he =>
      cfgGet_eq_none_iff.1 hget e ((fitting_isPrefix _ _).subset he)
    rw [hnone]
    rfl
  | some v =>
    obtain ⟨a, b, hab, ha⟩ := cfgGet_eq_some_iff.1 hget
    obtain ⟨hfits, -, htrim⟩ := h.visible a key v b hab ha
    obtain ⟨c, hc⟩ := fitting_of_le (b := b) hfits
    rw [← hab] at hc
    rw [cfgGet_eq_some_iff.2 ⟨a, c, hc, ha⟩, Option.map_some, htrim]

/-- A table that is found again meets the condition. -/
theorem visible_of_load {file : Option Bytes} (ht : StoredTable t)
    (h : ∀ key, cfgGet (load t (save t file)) key = cfgGet t key) (a : Table) (k v : Bytes)
    (b : Table) (hab : t = a ++ (k, v) :: b) (ha : k ∉ a.map Prod.fst) :
    textLength (a ++ [(k, v)]) ≤ BUF_SIZE ∧ Clean k ∧ rtrim v = v := by
  have hne : t ≠ [] := by simp [hab]
  -- Whatever a load finds has a clean key, so all keys are clean.
  have hclean : ∀ e ∈ t, Clean e.1 := by
    intro e he
    obtain ⟨w, hw⟩ := exists_visible he
    have hload := h e.1
    rw [hw, load, readFile_save ht hne] at hload
    obtain ⟨a', b', hab', -⟩ := cfgGet_eq_some_iff.1 hload
    have hmem : (e.1, w) ∈ (drainAll look () (lines (fitting BUF_SIZE t))).1 :=
      List.mem_of_mem_take (hab' ▸ List.mem_append_right _ List.mem_cons_self)
    exact clean_of_mem_lines
      (fun e he => ht.entries e ((fitting_isPrefix _ _).subset he)) (e.1, w) hmem
  have hload := h k
  rw [load, readFile_save_clean ht hne hclean, cfgGet_eq_some_iff.2 ⟨a, b, hab, ha⟩] at hload
  by_cases hfits : textLength (a ++ [(k, v)]) ≤ BUF_SIZE
  · obtain ⟨c, hc⟩ := fitting_of_le (b := b) hfits
    rw [← hab] at hc
    rw [cfgGet_eq_some_iff.2 ⟨a, c, hc, ha⟩, Option.map_some] at hload
    exact ⟨hfits, hclean (k, v) (hab ▸ List.mem_append_right _ List.mem_cons_self),
      Option.some.inj hload⟩
  · have hpre := fitting_of_lt (b := b) (not_le.1 hfits)
    rw [← hab] at hpre
    have hnone : cfgGet (fitting BUF_SIZE t) k = none := cfgGet_eq_none_iff.2 fun e he hek =>
      ha (List.mem_map.2 ⟨e, hpre.subset he, hek⟩)
    rw [hnone] at hload
    cases hload

theorem exists_default : ∃ v, cfgGet cfgDefaults (ascii "ml_enabled") = some v :=
  ⟨ascii "1", by decide +kernel⟩

theorem cfgGet_nil_iff : (∀ key, cfgGet t key = none) ↔ t = [] := by
  constructor
  · intro h
    cases t with
    | nil => rfl
    | cons e t => exact absurd rfl (cfgGet_eq_none_iff.1 (h e.1) e List.mem_cons_self)
  · rintro rfl _
    rfl

/-- An empty table survives only through a file that already holds no entry. -/
theorem survives_nil_iff (file : Option Bytes) : Survives [] file ↔
    ∃ text, file = some text ∧ text ≠ [] ∧ cfgLoad (text.take BUF_SIZE) = [] := by
  have hsave : save [] file = file := rfl
  constructor
  · intro h
    have hreboot : reboot file = [] := cfgGet_nil_iff.1 fun key => (h key).2
    obtain ⟨v, hv⟩ := exists_default
    cases file with
    | none => rw [show cfgDefaults = [] from hreboot] at hv; cases hv
    | some text =>
      by_cases htext : text = []
      · rw [reboot, readFile, if_pos htext] at hreboot
        rw [hreboot] at hv
        cases hv
      · rw [reboot, readFile, if_neg htext] at hreboot
        exact ⟨text, rfl, htext, hreboot⟩
  · rintro ⟨text, rfl, htext, hload⟩ key
    rw [hsave, load, reboot, readFile, readFile, if_neg htext, if_neg htext, hload]
    exact ⟨rfl, rfl⟩

/-- A table survives exactly if it meets the condition. -/
theorem survives_iff (ops : List Op) (file : Option Bytes) :
    Survives (tableAfter ops) file ↔ Saveable (tableAfter ops) file := by
  have ht := storedTable_tableAfter ops
  revert ht
  generalize tableAfter ops = t
  intro ht
  by_cases hne : t = []
  · subst hne
    rw [survives_nil_iff]
    exact ⟨fun h => ⟨fun _ => h, fun a k v b hab => by simp at hab⟩, fun h => h.empty rfl⟩
  · constructor
    · intro h
      exact ⟨fun hnil => absurd hnil hne, visible_of_load ht fun key => (h key).1⟩
    · intro h key
      exact ⟨readFile_save_of_visible ht hne h t key,
        readFile_save_of_visible ht hne h cfgDefaults key⟩

/-- `config set #a 1` is saved as a comment. -/
theorem comment_key_is_lost : ∃ ops file, ¬ Survives (tableAfter ops) file := by
  obtain ⟨key, hkey⟩ := exists_word (show isWord (ascii "#a") = true by decide)
  obtain ⟨val, hval⟩ := exists_word (show isWord (ascii "1") = true by decide)
  refine ⟨[.defaults, .set key val], none, fun h => ?_⟩
  have hlost := (h (ascii "#a")).1
  rw [show tableAfter [.defaults, .set key val] = (cfgSet cfgDefaults key.bytes val.bytes).2
    from rfl, hkey, hval] at hlost
  revert hlost
  decide +kernel

end RobotOs.Config
