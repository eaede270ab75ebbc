import ByteMachine.Screen.Cell

/-!
# Colours of the workbench

Key definitions: one colour for each kind of thing the panes show.
-/

namespace ByteMachine.Screen.Theme

/-- Text. -/
def text : Colour := .rgb 205 214 244

/-- Declared variables. -/
def primary : Colour := .rgb 137 180 250

/-- Heap blocks. -/
def secondary : Colour := .rgb 250 179 135

/-- What stands back. -/
def comment : Colour := .rgb 108 112 134

def success : Colour := .rgb 166 227 161

def error : Colour := .rgb 243 139 168

/-- The frame of the pane that has the focus. -/
def focusedFrame : Colour := .rgb 249 226 175

def frame : Colour := .rgb 108 112 134

/-- The ground of the status bar. -/
def bar : Colour := .rgb 50 50 70

/-- Types. -/
def type : Colour := .rgb 148 226 213

/-- References. -/
def reference : Colour := .rgb 245 194 231

/-- Bytes that no variable owns. -/
def free : Colour := .rgb 69 71 90

end ByteMachine.Screen.Theme
