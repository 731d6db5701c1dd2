import FileTransfer.Settings

/-!
# Entry names as libzip reads them

`_zip_guess_encoding`, `_zip_string_new`, `_zip_cp437_to_utf8` and the part of
`_zip_name_locate` that prepares the name, from libzip 1.9.2. A name passed
with `ZIP_FL_ENC_UTF_8` is compared as it stands; one passed with flags 0 is
guessed to be ASCII, UTF-8 or CP437, and in the last case converted first.
-/

namespace FileTransfer

set_option autoImplicit false

/-- The encodings `_zip_guess_encoding` tells apart. -/
inductive Encoding where
  | ascii
  | utf8
  | cp437
  deriving DecidableEq

/-- Bytes the guess passes over: printable ones, tab, line feed, return. The
bound is 128, so 127 is among them and other control bytes are not. -/
def isPlain (byte : UInt8) : Bool :=
  (31 < byte && byte < 128) || byte = 13 || byte = 10 || byte = 9

def isContinuation (byte : UInt8) : Bool := byte &&& 0xc0 = 0x80

/-- `_zip_guess_encoding` from a position on, with the guess made so far. A
lead byte must be followed by as many continuation bytes as it announces. -/
def guessFrom (guess : Encoding) : Bytes → Encoding
  | [] => guess
  | byte :: rest =>
      if isPlain byte then guessFrom guess rest
      else if byte &&& 0xe0 = 0xc0 then
        match rest with
        | next :: rest =>
            if isContinuation next then guessFrom .utf8 rest else .cp437
        | _ => .cp437
      else if byte &&& 0xf0 = 0xe0 then
        match rest with
        | next :: next' :: rest =>
            if isContinuation next && isContinuation next' then guessFrom .utf8 rest
            else .cp437
        | _ => .cp437
      else if byte &&& 0xf8 = 0xf0 then
        match rest with
        | next :: next' :: next'' :: rest =>
            if isContinuation next && isContinuation next' && isContinuation next'' then
              guessFrom .utf8 rest
            else .cp437
        | _ => .cp437
      else .cp437

def guessEncoding (raw : Bytes) : Encoding := guessFrom .ascii raw

/-- The bytes `_zip_string_new` keeps: its length argument is 16 bits wide. A
kept length of 0 is a NULL string. -/
def zipStringNew (raw : Bytes) : Option Bytes :=
  if raw.length % 65536 = 0 then none else some (raw.take (raw.length % 65536))

/-- `_cp437_to_unicode`, from 0x00 on; between 0x20 and 0x7e it is the
identity. -/
def cp437ToUnicode : List Nat :=
  [0x0000, 0x263A, 0x263B, 0x2665, 0x2666, 0x2663, 0x2660, 0x2022,
    0x25D8, 0x25CB, 0x25D9, 0x2642, 0x2640, 0x266A, 0x266B, 0x263C,
    0x25BA, 0x25C4, 0x2195, 0x203C, 0x00B6, 0x00A7, 0x25AC, 0x21A8,
    0x2191, 0x2193, 0x2192, 0x2190, 0x221F, 0x2194, 0x25B2, 0x25BC] ++
  (List.range 95).map (· + 0x20) ++ [0x2302,
    0x00C7, 0x00FC, 0x00E9, 0x00E2, 0x00E4, 0x00E0, 0x00E5, 0x00E7,
    0x00EA, 0x00EB, 0x00E8, 0x00EF, 0x00EE, 0x00EC, 0x00C4, 0x00C5,
    0x00C9, 0x00E6, 0x00C6, 0x00F4, 0x00F6, 0x00F2, 0x00FB, 0x00F9,
    0x00FF, 0x00D6, 0x00DC, 0x00A2, 0x00A3, 0x00A5, 0x20A7, 0x0192,
    0x00E1, 0x00ED, 0x00F3, 0x00FA, 0x00F1, 0x00D1, 0x00AA, 0x00BA,
    0x00BF, 0x2310, 0x00AC, 0x00BD, 0x00BC, 0x00A1, 0x00AB, 0x00BB,
    0x2591, 0x2592, 0x2593, 0x2502, 0x2524, 0x2561, 0x2562, 0x2556,
    0x2555, 0x2563, 0x2551, 0x2557, 0x255D, 0x255C, 0x255B, 0x2510,
    0x2514, 0x2534, 0x252C, 0x251C, 0x2500, 0x253C, 0x255E, 0x255F,
    0x255A, 0x2554, 0x2569, 0x2566, 0x2560, 0x2550, 0x256C, 0x2567,
    0x2568, 0x2564, 0x2565, 0x2559, 0x2558, 0x2552, 0x2553, 0x256B,
    0x256A, 0x2518, 0x250C, 0x2588, 0x2584, 0x258C, 0x2590, 0x2580,
    0x03B1, 0x00DF, 0x0393, 0x03C0, 0x03A3, 0x03C3, 0x00B5, 0x03C4,
    0x03A6, 0x0398, 0x03A9, 0x03B4, 0x221E, 0x03C6, 0x03B5, 0x2229,
    0x2261, 0x00B1, 0x2265, 0x2264, 0x2320, 0x2321, 0x00F7, 0x2248,
    0x00B0, 0x2219, 0x00B7, 0x221A, 0x207F, 0x00B2, 0x25A0, 0x00A0]

def unicodeToUtf8 (codepoint : Nat) : Bytes :=
  let tail := (codepoint % 64 + 0x80).toUInt8
  if codepoint < 0x80 then [codepoint.toUInt8]
  else if codepoint < 0x800 then [(codepoint / 64 % 32 + 0xc0).toUInt8, tail]
  else if codepoint < 0x10000 then
    [(codepoint / 4096 % 16 + 0xe0).toUInt8, (codepoint / 64 % 64 + 0x80).toUInt8, tail]
  else
    [(codepoint / 262144 % 8 + 0xf0).toUInt8, (codepoint / 4096 % 64 + 0x80).toUInt8,
      (codepoint / 64 % 64 + 0x80).toUInt8, tail]

def cp437ToUtf8 (raw : Bytes) : Bytes :=
  raw.flatMap fun byte => unicodeToUtf8 (cp437ToUnicode.getD byte.toNat 0)

/-- The flags the program passes with a name. -/
inductive NameFlags where
  /-- 0, that is `ZIP_FL_ENC_GUESS`. -/
  | guess
  /-- `ZIP_FL_ENC_UTF_8`. -/
  | utf8
  deriving DecidableEq

/-- The name `_zip_name_locate` looks up in the table of names; `none` where it
fails before it looks. -/
def lookupName (name : Bytes) : NameFlags → Option Bytes
  | .utf8 => some name
  | .guess =>
      if name = [] then some []
      else (zipStringNew name).map fun kept =>
        if guessEncoding kept = .cp437 then cp437ToUtf8 kept else kept

/-- The name `zip_file_add` with `ZIP_FL_ENC_UTF_8` gives a new entry; `none`
where the name is refused. -/
def acceptedName (name : Bytes) : Option Bytes :=
  if name = [] then some []
  else (zipStringNew name).bind fun kept =>
    if guessEncoding kept = .cp437 then none else some kept

/-- A name `zip_file_add` accepts is looked up, with flags 0, as the name the
entry got: the two ways of passing a name agree on it. -/
theorem lookup_accepted_name {name kept : Bytes} (accepted : acceptedName name = some kept) :
    lookupName name .guess = some kept := by
  unfold acceptedName at accepted
  unfold lookupName
  by_cases empty : name = []
  · simpa [empty] using accepted
  · rw [if_neg empty] at accepted ⊢
    cases new : zipStringNew name with
    | none => simp [new] at accepted
    | some raw =>
        simp only [new, Option.bind_some, Option.map_some] at accepted ⊢
        split at accepted
        · simp at accepted
        · rename_i kind
          simp only [Option.some.injEq] at accepted
          rw [if_neg kind, accepted]

theorem accepted_name_eq_take {name kept : Bytes} (accepted : acceptedName name = some kept) :
    kept = name.take (name.length % 65536) := by
  unfold acceptedName at accepted
  by_cases empty : name = []
  · rw [if_pos empty, Option.some.injEq] at accepted
    rw [← accepted, empty]
    rfl
  · rw [if_neg empty, Option.bind_eq_some_iff] at accepted
    obtain ⟨raw, new, accepted⟩ := accepted
    have raw' : kept = raw := by
      split at accepted
      · cases accepted
      · exact (Option.some.inj accepted).symm
    unfold zipStringNew at new
    split at new
    · cases new
    · rw [raw', Option.some.inj new]

theorem accepted_name_length {name kept : Bytes} (accepted : acceptedName name = some kept) :
    kept.length < 65536 := by
  rw [accepted_name_eq_take accepted, List.length_take]
  omega

theorem accepted_name_short {name kept : Bytes} (accepted : acceptedName name = some kept)
    (short : name.length < 65536) : kept = name := by
  rw [accepted_name_eq_take accepted, Nat.mod_eq_of_lt short, List.take_length]

theorem accepted_short_name {name : Bytes} (short : name.length < 65536) :
    acceptedName name = if guessEncoding name = .cp437 then none else some name := by
  unfold acceptedName zipStringNew
  by_cases empty : name = []
  · rw [if_pos empty, empty]
    rfl
  · have positive : name.length ≠ 0 := fun none => empty (List.length_eq_zero_iff.mp none)
    rw [if_neg empty, Nat.mod_eq_of_lt short, if_neg positive, List.take_length, Option.bind_some]

theorem lookup_short_name {name : Bytes} (short : name.length < 65536) :
    lookupName name .guess =
      some (if guessEncoding name = .cp437 then cp437ToUtf8 name else name) := by
  unfold lookupName zipStringNew
  by_cases empty : name = []
  · simp only [empty, if_pos]
    rfl
  · have positive : name.length ≠ 0 := fun none => empty (List.length_eq_zero_iff.mp none)
    simp only [if_neg empty, Nat.mod_eq_of_lt short, if_neg positive, List.take_length,
      Option.map_some]

theorem accepted_name_subset {name kept : Bytes} (accepted : acceptedName name = some kept) :
    kept ⊆ name := by
  rw [accepted_name_eq_take accepted]
  exact List.take_subset _ _

example : cp437ToUnicode.length = 256 := by simp [cp437ToUnicode]
example : acceptedName (ascii "a.txt") = some (ascii "a.txt") := by decide
example : acceptedName [0xff] = none := by decide

end FileTransfer
