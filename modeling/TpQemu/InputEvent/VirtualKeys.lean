import TpQemu.Lib.Dict

/-!
# Names of virtual keys

The tables of the two programs: `VK_CODES` in `deps/input_event/input_event_win.py`, with
which the agent names a key, and `VK2Linux` in `provider/input_event_proxy.py`, in which
the listener looks the name up.
-/

namespace TpQemu.InputEvent

/-- The names of virtual keys; `unknown` is the fallback of the agent. -/
inductive VkName where
  | vkLbutton | vkRbutton | vkCancel | vkMbutton | vkXbutton1 | vkXbutton2 | vkBack | vkTab
  | vkClear | vkReturn | vkShift | vkControl | vkMenu | vkPause | vkCapital | vkHangul | vkJunja
  | vkFinal | vkKanji | vkEscape | vkConvert | vkNonconvert | vkAccept | vkModechange | vkSpace
  | vkPrior | vkNext | vkEnd | vkHome | vkLeft | vkUp | vkRight | vkDown | vkSelect | vkPrint
  | vkExecute | vkSnapshot | vkInsert | vkDelete | vkHelp | vk0 | vk1 | vk2 | vk3 | vk4 | vk5
  | vk6 | vk7 | vk8 | vk9 | vkA | vkB | vkC | vkD | vkE | vkF | vkG | vkH | vkI | vkJ | vkK | vkL
  | vkM | vkN | vkO | vkP | vkQ | vkR | vkS | vkT | vkU | vkV | vkW | vkX | vkY | vkZ | vkLwin
  | vkRwin | vkApps | vkSleep | vkNumpad0 | vkNumpad1 | vkNumpad2 | vkNumpad3 | vkNumpad4
  | vkNumpad5 | vkNumpad6 | vkNumpad7 | vkNumpad8 | vkNumpad9 | vkMultiply | vkAdd | vkSeparator
  | vkSubtract | vkDecimal | vkDivide | vkF1 | vkF2 | vkF3 | vkF4 | vkF5 | vkF6 | vkF7 | vkF8
  | vkF9 | vkF10 | vkF11 | vkF12 | vkF13 | vkF14 | vkF15 | vkF16 | vkF17 | vkF18 | vkF19 | vkF20
  | vkF21 | vkF22 | vkF23 | vkF24 | vkNumlock | vkScroll | vkOem0x92 | vkOem0x93 | vkOem0x94
  | vkOem0x95 | vkOem0x96 | vkLshift | vkRshift | vkLcontrol | vkRcontrol | vkLmenu | vkRmenu
  | vkBrowserBack | vkBrowserForward | vkBrowserRefresh | vkBrowserStop | vkBrowserSearch
  | vkBrowserFavorites | vkBrowserHome | vkVolumeMute | vkVolumeDown | vkVolumeUp
  | vkMediaNextTrack | vkMediaPrevTrack | vkMediaStop | vkMediaPlayPause | vkLaunchMail
  | vkLaunchMediaSelect | vkLaunchApp1 | vkLaunchApp2 | vkOem1 | vkOemPlus | vkOemComma
  | vkOemMinus | vkOemPeriod | vkOem2 | vkOem3 | vkOem4 | vkOem5 | vkOem6 | vkOem7 | vkOem8
  | vkOem0xE1 | vkOem102 | vkOem0xE3 | vkOem0xE4 | vkProcesskey | vkOem0xE6 | vkPacket | vkOem0xE9
  | vkOem0xEA | vkOem0xEB | vkOem0xEC | vkOem0xED | vkOem0xEE | vkOem0xEF | vkOem0xF0 | vkOem0xF1
  | vkOem0xF2 | vkOem0xF3 | vkOem0xF4 | vkOem0xF5 | vkAttn | vkCrsel | vkExsel | vkEreof | vkPlay
  | vkZoom | vkNoname | vkPa1 | vkOemClear | vkKana | vkHanguel | vkHanja | unknown

/-- `VK_CODES`. -/
def vkCodes : Dict Nat VkName where
  entries :=
    [(0x01, .vkLbutton), (0x02, .vkRbutton), (0x03, .vkCancel), (0x04, .vkMbutton),
      (0x05, .vkXbutton1), (0x06, .vkXbutton2), (0x08, .vkBack), (0x09, .vkTab), (0x0C, .vkClear),
      (0x0D, .vkReturn), (0x10, .vkShift), (0x11, .vkControl), (0x12, .vkMenu), (0x13, .vkPause),
      (0x14, .vkCapital), (0x15, .vkHangul), (0x17, .vkJunja), (0x18, .vkFinal), (0x19, .vkKanji),
      (0x1B, .vkEscape), (0x1C, .vkConvert), (0x1D, .vkNonconvert), (0x1E, .vkAccept),
      (0x1F, .vkModechange), (0x20, .vkSpace), (0x21, .vkPrior), (0x22, .vkNext), (0x23, .vkEnd),
      (0x24, .vkHome), (0x25, .vkLeft), (0x26, .vkUp), (0x27, .vkRight), (0x28, .vkDown),
      (0x29, .vkSelect), (0x2A, .vkPrint), (0x2B, .vkExecute), (0x2C, .vkSnapshot),
      (0x2D, .vkInsert), (0x2E, .vkDelete), (0x2F, .vkHelp), (0x30, .vk0), (0x31, .vk1),
      (0x32, .vk2), (0x33, .vk3), (0x34, .vk4), (0x35, .vk5), (0x36, .vk6), (0x37, .vk7),
      (0x38, .vk8), (0x39, .vk9), (0x41, .vkA), (0x42, .vkB), (0x43, .vkC), (0x44, .vkD),
      (0x45, .vkE), (0x46, .vkF), (0x47, .vkG), (0x48, .vkH), (0x49, .vkI), (0x4A, .vkJ),
      (0x4B, .vkK), (0x4C, .vkL), (0x4D, .vkM), (0x4E, .vkN), (0x4F, .vkO), (0x50, .vkP),
      (0x51, .vkQ), (0x52, .vkR), (0x53, .vkS), (0x54, .vkT), (0x55, .vkU), (0x56, .vkV),
      (0x57, .vkW), (0x58, .vkX), (0x59, .vkY), (0x5A, .vkZ), (0x5B, .vkLwin), (0x5C, .vkRwin),
      (0x5D, .vkApps), (0x5F, .vkSleep), (0x60, .vkNumpad0), (0x61, .vkNumpad1),
      (0x62, .vkNumpad2), (0x63, .vkNumpad3), (0x64, .vkNumpad4), (0x65, .vkNumpad5),
      (0x66, .vkNumpad6), (0x67, .vkNumpad7), (0x68, .vkNumpad8), (0x69, .vkNumpad9),
      (0x6A, .vkMultiply), (0x6B, .vkAdd), (0x6C, .vkSeparator), (0x6D, .vkSubtract),
      (0x6E, .vkDecimal), (0x6F, .vkDivide), (0x70, .vkF1), (0x71, .vkF2), (0x72, .vkF3),
      (0x73, .vkF4), (0x74, .vkF5), (0x75, .vkF6), (0x76, .vkF7), (0x77, .vkF8), (0x78, .vkF9),
      (0x79, .vkF10), (0x7A, .vkF11), (0x7B, .vkF12), (0x7C, .vkF13), (0x7D, .vkF14),
      (0x7E, .vkF15), (0x7F, .vkF16), (0x80, .vkF17), (0x81, .vkF18), (0x82, .vkF19),
      (0x83, .vkF20), (0x84, .vkF21), (0x85, .vkF22), (0x86, .vkF23), (0x87, .vkF24),
      (0x90, .vkNumlock), (0x91, .vkScroll), (0x92, .vkOem0x92), (0x93, .vkOem0x93),
      (0x94, .vkOem0x94), (0x95, .vkOem0x95), (0x96, .vkOem0x96), (0xA0, .vkLshift),
      (0xA1, .vkRshift), (0xA2, .vkLcontrol), (0xA3, .vkRcontrol), (0xA4, .vkLmenu),
      (0xA5, .vkRmenu), (0xA6, .vkBrowserBack), (0xA7, .vkBrowserForward),
      (0xA8, .vkBrowserRefresh), (0xA9, .vkBrowserStop), (0xAA, .vkBrowserSearch),
      (0xAB, .vkBrowserFavorites), (0xAC, .vkBrowserHome), (0xAD, .vkVolumeMute),
      (0xAE, .vkVolumeDown), (0xAF, .vkVolumeUp), (0xB0, .vkMediaNextTrack),
      (0xB1, .vkMediaPrevTrack), (0xB2, .vkMediaStop), (0xB3, .vkMediaPlayPause),
      (0xB4, .vkLaunchMail), (0xB5, .vkLaunchMediaSelect), (0xB6, .vkLaunchApp1),
      (0xB7, .vkLaunchApp2), (0xBA, .vkOem1), (0xBB, .vkOemPlus), (0xBC, .vkOemComma),
      (0xBD, .vkOemMinus), (0xBE, .vkOemPeriod), (0xBF, .vkOem2), (0xC0, .vkOem3),
      (0xDB, .vkOem4), (0xDC, .vkOem5), (0xDD, .vkOem6), (0xDE, .vkOem7), (0xDF, .vkOem8),
      (0xE1, .vkOem0xE1), (0xE2, .vkOem102), (0xE3, .vkOem0xE3), (0xE4, .vkOem0xE4),
      (0xE5, .vkProcesskey), (0xE6, .vkOem0xE6), (0xE7, .vkPacket), (0xE9, .vkOem0xE9),
      (0xEA, .vkOem0xEA), (0xEB, .vkOem0xEB), (0xEC, .vkOem0xEC), (0xED, .vkOem0xED),
      (0xEE, .vkOem0xEE), (0xEF, .vkOem0xEF), (0xF0, .vkOem0xF0), (0xF1, .vkOem0xF1),
      (0xF2, .vkOem0xF2), (0xF3, .vkOem0xF3), (0xF4, .vkOem0xF4), (0xF5, .vkOem0xF5),
      (0xF6, .vkAttn), (0xF7, .vkCrsel), (0xF8, .vkExsel), (0xF9, .vkEreof), (0xFA, .vkPlay),
      (0xFB, .vkZoom), (0xFC, .vkNoname), (0xFD, .vkPa1), (0xFE, .vkOemClear)]
  nodup := (List.isChain_iff_pairwise.mp (by decide +kernel)).imp Nat.ne_of_lt

def unmapped : String := "UNMAPPED"

/-- `VK2Linux`; no entry is there for the mouse buttons, `VK_CANCEL` and `unknown`. -/
def vk2Linux : VkName → Option String
  | .vkBack => some "KEY_BACKSPACE"
  | .vkTab => some "KEY_TAB"
  | .vkClear => some "KEY_CLEAR"
  | .vkReturn => some "KEY_ENTER"
  | .vkShift => some "KEY_LEFTSHIFT"
  | .vkControl => some "KEY_LEFTCTRL"
  | .vkMenu => some "KEY_LEFTALT"
  | .vkPause => some "KEY_PAUSE"
  | .vkCapital => some "KEY_CAPSLOCK"
  | .vkKana => some "KEY_KATAKANA"
  | .vkHanguel => some "KEY_HANGEUL"
  | .vkHangul => some "KEY_HANGEUL"
  | .vkJunja => some unmapped
  | .vkFinal => some unmapped
  | .vkHanja => some "KEY_HANJA"
  | .vkKanji => some unmapped
  | .vkEscape => some "KEY_ESC"
  | .vkConvert => some "KEY_HENKAN"
  | .vkNonconvert => some "KEY_MUHENKAN"
  | .vkAccept => some unmapped
  | .vkModechange => some unmapped
  | .vkSpace => some "KEY_SPACE"
  | .vkPrior => some "KEY_PAGEUP"
  | .vkNext => some "KEY_PAGEDOWN"
  | .vkEnd => some "KEY_END"
  | .vkHome => some "KEY_HOME"
  | .vkLeft => some "KEY_LEFT"
  | .vkUp => some "KEY_UP"
  | .vkRight => some "KEY_RIGHT"
  | .vkDown => some "KEY_DOWN"
  | .vkSelect => some "KEY_SELECT"
  | .vkPrint => some "KEY_PRINT"
  | .vkExecute => some unmapped
  | .vkSnapshot => some "KEY_SYSRQ"
  | .vkInsert => some "KEY_INSERT"
  | .vkDelete => some "KEY_DELETE"
  | .vkHelp => some "KEY_HELP"
  | .vk0 => some "KEY_0"
  | .vk1 => some "KEY_1"
  | .vk2 => some "KEY_2"
  | .vk3 => some "KEY_3"
  | .vk4 => some "KEY_4"
  | .vk5 => some "KEY_5"
  | .vk6 => some "KEY_6"
  | .vk7 => some "KEY_7"
  | .vk8 => some "KEY_8"
  | .vk9 => some "KEY_9"
  | .vkA => some "KEY_A"
  | .vkB => some "KEY_B"
  | .vkC => some "KEY_C"
  | .vkD => some "KEY_D"
  | .vkE => some "KEY_E"
  | .vkF => some "KEY_F"
  | .vkG => some "KEY_G"
  | .vkH => some "KEY_H"
  | .vkI => some "KEY_I"
  | .vkJ => some "KEY_J"
  | .vkK => some "KEY_K"
  | .vkL => some "KEY_L"
  | .vkM => some "KEY_M"
  | .vkN => some "KEY_N"
  | .vkO => some "KEY_O"
  | .vkP => some "KEY_P"
  | .vkQ => some "KEY_Q"
  | .vkR => some "KEY_R"
  | .vkS => some "KEY_S"
  | .vkT => some "KEY_T"
  | .vkU => some "KEY_U"
  | .vkV => some "KEY_V"
  | .vkW => some "KEY_W"
  | .vkX => some "KEY_X"
  | .vkY => some "KEY_Y"
  | .vkZ => some "KEY_Z"
  | .vkLwin => some "KEY_LEFTMETA"
  | .vkRwin => some "KEY_RIGHTMETA"
  | .vkApps => some "KEY_COMPOSE"
  | .vkSleep => some "KEY_SLEEP"
  | .vkNumpad0 => some "KEY_KP0"
  | .vkNumpad1 => some "KEY_KP1"
  | .vkNumpad2 => some "KEY_KP2"
  | .vkNumpad3 => some "KEY_KP3"
  | .vkNumpad4 => some "KEY_KP4"
  | .vkNumpad5 => some "KEY_KP5"
  | .vkNumpad6 => some "KEY_KP6"
  | .vkNumpad7 => some "KEY_KP7"
  | .vkNumpad8 => some "KEY_KP8"
  | .vkNumpad9 => some "KEY_KP9"
  | .vkMultiply => some "KEY_KPASTERISK"
  | .vkAdd => some "KEY_KPPLUS"
  | .vkSeparator => some "KEY_KPCOMMA"
  | .vkSubtract => some "KEY_KPMINUS"
  | .vkDecimal => some "KEY_KPDOT"
  | .vkDivide => some "KEY_KPSLASH"
  | .vkF1 => some "KEY_F1"
  | .vkF2 => some "KEY_F2"
  | .vkF3 => some "KEY_F3"
  | .vkF4 => some "KEY_F4"
  | .vkF5 => some "KEY_F5"
  | .vkF6 => some "KEY_F6"
  | .vkF7 => some "KEY_F7"
  | .vkF8 => some "KEY_F8"
  | .vkF9 => some "KEY_F9"
  | .vkF10 => some "KEY_F10"
  | .vkF11 => some "KEY_F11"
  | .vkF12 => some "KEY_F12"
  | .vkF13 => some "KEY_F13"
  | .vkF14 => some "KEY_F14"
  | .vkF15 => some "KEY_F15"
  | .vkF16 => some "KEY_F16"
  | .vkF17 => some "KEY_F17"
  | .vkF18 => some "KEY_F18"
  | .vkF19 => some "KEY_F19"
  | .vkF20 => some "KEY_F20"
  | .vkF21 => some "KEY_F21"
  | .vkF22 => some "KEY_F22"
  | .vkF23 => some "KEY_F23"
  | .vkF24 => some "KEY_F24"
  | .vkNumlock => some "KEY_NUMLOCK"
  | .vkScroll => some "KEY_SCROLLLOCK"
  | .vkOem0x92 => some unmapped
  | .vkOem0x93 => some unmapped
  | .vkOem0x94 => some unmapped
  | .vkOem0x95 => some unmapped
  | .vkOem0x96 => some unmapped
  | .vkLshift => some "KEY_LEFTSHIFT"
  | .vkRshift => some "KEY_RIGHTSHIFT"
  | .vkLcontrol => some "KEY_LEFTCTRL"
  | .vkRcontrol => some "KEY_RIGHTCTRL"
  | .vkLmenu => some "KEY_LEFTALT"
  | .vkRmenu => some "KEY_RIGHTALT"
  | .vkBrowserBack => some "KEY_BACK"
  | .vkBrowserForward => some "KEY_FORWARD"
  | .vkBrowserRefresh => some "KEY_REFRESH"
  | .vkBrowserStop => some "KEY_STOP"
  | .vkBrowserSearch => some "KEY_SEARCH"
  | .vkBrowserFavorites => some "KEY_FAVORITES"
  | .vkBrowserHome => some "KEY_HOMEPAGE"
  | .vkVolumeMute => some "KEY_MUTE"
  | .vkVolumeDown => some "KEY_VOLUMEDOWN"
  | .vkVolumeUp => some "KEY_VOLUMEUP"
  | .vkMediaNextTrack => some "KEY_NEXTSONG"
  | .vkMediaPrevTrack => some "KEY_PREVIOUSSONG"
  | .vkMediaStop => some "KEY_STOPCD"
  | .vkMediaPlayPause => some "KEY_PLAYPAUSE"
  | .vkLaunchMail => some "KEY_EMAIL"
  | .vkLaunchMediaSelect => some unmapped
  | .vkLaunchApp1 => some unmapped
  | .vkLaunchApp2 => some unmapped
  | .vkOem1 => some "KEY_SEMICOLON"
  | .vkOemPlus => some "KEY_EQUAL"
  | .vkOemComma => some "KEY_COMMA"
  | .vkOemMinus => some "KEY_MINUS"
  | .vkOemPeriod => some "KEY_DOT"
  | .vkOem2 => some "KEY_SLASH"
  | .vkOem3 => some "KEY_GRAVE"
  | .vkOem4 => some "KEY_LEFTBRACE"
  | .vkOem5 => some "KEY_BACKSLASH"
  | .vkOem6 => some "KEY_RIGHTBRACE"
  | .vkOem7 => some "KEY_APOSTROPHE"
  | .vkOem8 => some unmapped
  | .vkOem0xE1 => some unmapped
  | .vkOem102 => some "KEY_102ND"
  | .vkOem0xE3 => some unmapped
  | .vkOem0xE4 => some unmapped
  | .vkProcesskey => some unmapped
  | .vkOem0xE6 => some unmapped
  | .vkPacket => some unmapped
  | .vkOem0xE9 => some unmapped
  | .vkOem0xEA => some unmapped
  | .vkOem0xEB => some unmapped
  | .vkOem0xEC => some unmapped
  | .vkOem0xED => some unmapped
  | .vkOem0xEE => some unmapped
  | .vkOem0xEF => some unmapped
  | .vkOem0xF0 => some unmapped
  | .vkOem0xF1 => some unmapped
  | .vkOem0xF2 => some unmapped
  | .vkOem0xF3 => some unmapped
  | .vkOem0xF4 => some unmapped
  | .vkOem0xF5 => some unmapped
  | .vkAttn => some unmapped
  | .vkCrsel => some unmapped
  | .vkExsel => some unmapped
  | .vkEreof => some unmapped
  | .vkPlay => some "KEY_PLAY"
  | .vkZoom => some "KEY_ZOOM"
  | .vkNoname => some unmapped
  | .vkPa1 => some unmapped
  | .vkOemClear => some unmapped
  | _ => none

/-- `VK_CODES.get(vkCode, "UNKNOWN")`. -/
def vkCodeName (vkCode : Nat) : VkName := (vkCodes.get? vkCode).getD .unknown

/-- A virtual key that both tables have. The first six codes of the agent's table, the
mouse buttons and `VK_CANCEL`, are missing from the listener's. -/
def KnownKey (vkCode : BitVec 32) : Prop := vkCode.toNat ∈ vkCodes.keys ∧ 6 < vkCode.toNat

/-- The names of the agent's table that the listener's table has. -/
theorem vk2Linux_isSome_of_mem :
    ∀ p ∈ vkCodes.entries, (vk2Linux p.2).isSome = decide (6 < p.1) := by
  decide +kernel

/-- The listener finds the name of exactly the known keys. -/
theorem vk2Linux_vkCodeName_isSome (vkCode : BitVec 32) :
    (vk2Linux (vkCodeName vkCode.toNat)).isSome ↔ KnownKey vkCode := by
  unfold vkCodeName KnownKey
  cases hname : vkCodes.get? vkCode.toNat with
  | none =>
      have absent := Dict.get?_eq_none_iff.mp hname
      simp only [absent, false_and, iff_false]
      exact Bool.false_ne_true
  | some name =>
      have mem := Dict.get?_eq_some_iff.mp hname
      have present := Dict.mem_keys_of_mem mem
      rw [Option.getD_some, vk2Linux_isSome_of_mem _ mem, decide_eq_true_iff]
      simp only [present, true_and]

end TpQemu.InputEvent
