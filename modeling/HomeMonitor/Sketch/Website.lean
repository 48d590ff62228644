import HomeMonitor.Sketch.AsyncWebserver

/-! The root page of the server sketch, and the file that it is generated from. -/
namespace HomeMonitor.AsyncWebserver
open HomeMonitor.Arduino

/-- The lines of the raw literal, which begins and ends with a line break. -/
def websiteLines : List String := [
  "<DOCTYPE HTML>",
  "<html>",
  "<head>",
  "<meta name=\"viewport\" content=\"width=device-width, initial-scale=1\">",
  "<link rel=\"stylesheet\" href=\"https://use.fontawesome.com/releases/v5.7.2/css/all.css\"",
  "integrity=\"sha384-fnmOCqbTlWIlj8LyTjo7mOUStjsKC4pOpQbqyi7RrhN7udi9RwhKkMHpvLbHG9Sr\"" ++
    " crossorigin=\"anonymous\">",
  "<style>",
  "html \x7b",
  "font-family: Arial;",
  "display: inline-block;",
  "margin: 0px auto;",
  "text-align: center;",
  "\x7d",
  "h2 \x7b",
  "font-size: 3.0rem;",
  "\x7d",
  "p \x7b",
  "font-size: 3.0rem;",
  "\x7d",
  ".units \x7b",
  "font-size: 1.2rem;",
  "\x7d",
  ".dht-labels \x7b",
  "font-size: 1.5rem;",
  "vertical-align: middle;",
  "padding-bottom: 15px;",
  "\x7d",
  "</style>",
  "</head>",
  "<body>",
  "<h2>ESP8266 Home monitoring system</h2>",
  "<p>",
  "<i class=\"fas fa-thermometer-half\" style=\"color:#059e8a;\"></i>",
  "<span class=\"dht-labels\">Temperature</span>",
  "<span id=\"temperature\">%TEMPERATURE%</span>",
  "<sup class=\"units\">&deg;C</sup>",
  "</p>",
  "<p>",
  "<i class=\"fas fa-tint\" style=\"color:#00add6;\"></i>",
  "<span class=\"dht-labels\">Humidity</span>",
  "<span id=\"humidity\">%HUMIDITY%</span>",
  "<sup class=\"units\">%</sup>",
  "</p>",
  "<p>",
  "<i class=\"fas fa-exclamation\"></i>",
  "<span class=\"dht-labels\">Motion</span>",
  "<span id=\"motionDetection\">%MOTION%</span>",
  "</p>",
  "<p>",
  "<i class=\"fas fa-sun\"></i>",
  "<span class=\"dht-labels\">Light</span>",
  "<span id=\"lightDetection\">%LIGHT%</span>",
  "</p>",
  "<p>",
  "<i class=\"fas fa-key\"></i>",
  "<span class=\"dht-labels\">Status RFID</span>",
  "<span id=\"rfid\">%RFID Status%</span>",
  "</p>",
  "<p>",
  "<i class=\"fas fa-exclamation\"></i>",
  "<span class=\"dht-labels\">Keypad</span>",
  "<span id=\"keypad\">%Keypad Status%</span>",
  "</p>",
  "<p>",
  "<button class=\"button\"",
  "onmousedown=\"toggleCheckbox('on');\"",
  "ontouchstart=\"toggleCheckbox('on');\">",
  "<span>OPEN DOOR</span>",
  "</button>",
  "</p>",
  "</body>",
  "<script>",
  "setInterval(function () \x7b",
  "var xhttp = new XMLHttpRequest();",
  "xhttp.onreadystatechange = function () \x7b",
  "if (this.readyState == 4 && this.status == 200) \x7b",
  "document.getElementById(\"temperature\").innerHTML = this.responseText;",
  "\x7d",
  "\x7d;",
  "xhttp.open(\"GET\", \"/temperature\", true);",
  "xhttp.send();",
  "\x7d, 1000);",
  "setInterval(function () \x7b",
  "var xhttp = new XMLHttpRequest();",
  "xhttp.onreadystatechange = function () \x7b",
  "if (this.readyState == 4 && this.status == 200) \x7b",
  "document.getElementById(\"humidity\").innerHTML = this.responseText;",
  "\x7d",
  "\x7d;",
  "xhttp.open(\"GET\", \"/humidity\", true);",
  "xhttp.send();",
  "\x7d, 1000);",
  "setInterval(function () \x7b",
  "var xhttp = new XMLHttpRequest();",
  "xhttp.onreadystatechange = function () \x7b",
  "if (this.readyState == 4 && this.status == 200) \x7b",
  "document.getElementById(\"motionDetection\").innerHTML = this.responseText;",
  "\x7d",
  "\x7d;",
  "xhttp.open(\"GET\", \"/motionDetection\", true);",
  "xhttp.send();",
  "\x7d, 1000);",
  "setInterval(function () \x7b",
  "var xhttp = new XMLHttpRequest();",
  "xhttp.onreadystatechange = function () \x7b",
  "if (this.readyState == 4 && this.status == 200) \x7b",
  "document.getElementById(\"lightDetection\").innerHTML = this.responseText;",
  "\x7d",
  "\x7d;",
  "xhttp.open(\"GET\", \"/lightDetection\", true);",
  "xhttp.send();",
  "\x7d, 1000);",
  "setInterval(function () \x7b",
  "var xhttp = new XMLHttpRequest();",
  "xhttp.onreadystatechange = function () \x7b",
  "if (this.readyState == 4 && this.status == 200) \x7b",
  "document.getElementById(\"keypad\").innerHTML = this.responseText;",
  "\x7d",
  "\x7d;",
  "xhttp.open(\"GET\", \"/keypad\", true);",
  "xhttp.send();",
  "\x7d, 1000);",
  "setInterval(function () \x7b",
  "var xhttp = new XMLHttpRequest();",
  "xhttp.onreadystatechange = function () \x7b",
  "if (this.readyState == 4 && this.status == 200) \x7b",
  "document.getElementById(\"rfid\").innerHTML = this.responseText;",
  "\x7d",
  "\x7d;",
  "xhttp.open(\"GET\", \"/rfid\", true);",
  "xhttp.send();",
  "\x7d, 1000);",
  "function toggleCheckbox(x) \x7b",
  "var xhr = new XMLHttpRequest();",
  "xhr.open(\"GET\", \"/\" + x, true);",
  "xhr.send();",
  "\x7d",
  "</script>",
  "</html>"]

def WEBSITE : Str := '\n' :: websiteLines.flatMap fun line => line.toList ++ ['\n']

/-- The lines of the page as it is edited; the last one has no line end. -/
def websiteHtmlLines : List String := [
  "<!DOCTYPE HTML>",
  "<html>",
  "<head>",
  "  <meta name=\"viewport\" content=\"width=device-width, initial-scale=1\">",
  "  <link rel=\"stylesheet\" href=\"https://use.fontawesome.com/releases/v5.7.2/css/all.css\"",
  "    integrity=\"sha384-fnmOCqbTlWIlj8LyTjo7mOUStjsKC4pOpQbqyi7RrhN7udi9RwhKkMHpvLbHG9Sr\"" ++
    " crossorigin=\"anonymous\">",
  "  <style>",
  "    html \x7b",
  "      font-family: Arial;",
  "      display: inline-block;",
  "      margin: 0px auto;",
  "      text-align: center;",
  "    \x7d",
  "",
  "    h2 \x7b",
  "      font-size: 3.0rem;",
  "    \x7d",
  "",
  "    p \x7b",
  "      font-size: 3.0rem;",
  "    \x7d",
  "",
  "    .units \x7b",
  "      font-size: 1.2rem;",
  "    \x7d",
  "",
  "    .dht-labels \x7b",
  "      font-size: 1.5rem;",
  "      vertical-align: middle;",
  "      padding-bottom: 15px;",
  "    \x7d",
  "  </style>",
  "</head>",
  "",
  "<body>",
  "  <h2>ESP8266 Home monitoring system</h2>",
  "  <p>",
  "    <i class=\"fas fa-thermometer-half\" style=\"color:#059e8a;\"></i>",
  "    <span class=\"dht-labels\">Temperature</span>",
  "    <span id=\"temperature\">%TEMPERATURE%</span>",
  "    <sup class=\"units\">&deg;C</sup>",
  "  </p>",
  "  <p>",
  "    <i class=\"fas fa-tint\" style=\"color:#00add6;\"></i>",
  "    <span class=\"dht-labels\">Humidity</span>",
  "    <span id=\"humidity\">%HUMIDITY%</span>",
  "    <sup class=\"units\">%</sup>",
  "  </p>",
  "  <p>",
  "    <i class=\"fas fa-exclamation\"></i>",
  "    <span class=\"dht-labels\">Motion</span>",
  "    <span id=\"motionDetection\">%MOTION%</span>",
  "  </p>",
  "  <p>",
  "    <i class=\"fas fa-sun\"></i>",
  "    <span class=\"dht-labels\">Light</span>",
  "    <span id=\"lightDetection\">%LIGHT%</span>",
  "    </p>",
  "  <p>",
  "    <i class=\"fas fa-key\"></i>",
  "    <span class=\"dht-labels\">Status RFID</span>",
  "    <span id=\"rfid\">%RFID Status%</span>",
  "  </p>",
  "  <p>",
  "    <i class=\"fas fa-exclamation\"></i>",
  "    <span class=\"dht-labels\">Keypad</span>",
  "    <span id=\"keypad\">%Keypad Status%</span>",
  "  </p>",
  "  <p>",
  "    <button class=\"button\"",
  "            onmousedown=\"toggleCheckbox('on');\"",
  "            ontouchstart=\"toggleCheckbox('on');\">",
  "        <span>OPEN DOOR</span>",
  "    </button>",
  "</p>",
  "</body>",
  "<script>",
  "  setInterval(function () \x7b",
  "    var xhttp = new XMLHttpRequest();",
  "    xhttp.onreadystatechange = function () \x7b",
  "      if (this.readyState == 4 && this.status == 200) \x7b",
  "        document.getElementById(\"temperature\").innerHTML = this.responseText;",
  "      \x7d",
  "    \x7d;",
  "    xhttp.open(\"GET\", \"/temperature\", true);",
  "    xhttp.send();",
  "  \x7d, 1000);",
  "",
  "  setInterval(function () \x7b",
  "    var xhttp = new XMLHttpRequest();",
  "    xhttp.onreadystatechange = function () \x7b",
  "      if (this.readyState == 4 && this.status == 200) \x7b",
  "        document.getElementById(\"humidity\").innerHTML = this.responseText;",
  "      \x7d",
  "    \x7d;",
  "    xhttp.open(\"GET\", \"/humidity\", true);",
  "    xhttp.send();",
  "  \x7d, 1000);",
  "",
  "  setInterval(function () \x7b",
  "    var xhttp = new XMLHttpRequest();",
  "    xhttp.onreadystatechange = function () \x7b",
  "      if (this.readyState == 4 && this.status == 200) \x7b",
  "        document.getElementById(\"motionDetection\").innerHTML = this.responseText;",
  "      \x7d",
  "    \x7d;",
  "    xhttp.open(\"GET\", \"/motionDetection\", true);",
  "    xhttp.send();",
  "  \x7d, 1000);",
  "",
  "setInterval(function () \x7b",
  "    var xhttp = new XMLHttpRequest();",
  "    xhttp.onreadystatechange = function () \x7b",
  "        if (this.readyState == 4 && this.status == 200) \x7b",
  "            document.getElementById(\"lightDetection\").innerHTML = this.responseText;",
  "        \x7d",
  "    \x7d;",
  "    xhttp.open(\"GET\", \"/lightDetection\", true);",
  "    xhttp.send();",
  "\x7d, 1000);",
  "  setInterval(function () \x7b",
  "    var xhttp = new XMLHttpRequest();",
  "    xhttp.onreadystatechange = function () \x7b",
  "      if (this.readyState == 4 && this.status == 200) \x7b",
  "        document.getElementById(\"keypad\").innerHTML = this.responseText;",
  "      \x7d",
  "    \x7d;",
  "    xhttp.open(\"GET\", \"/keypad\", true);",
  "    xhttp.send();",
  "  \x7d, 1000);",
  "",
  "  setInterval(function () \x7b",
  "    var xhttp = new XMLHttpRequest();",
  "    xhttp.onreadystatechange = function () \x7b",
  "      if (this.readyState == 4 && this.status == 200) \x7b",
  "        document.getElementById(\"rfid\").innerHTML = this.responseText;",
  "      \x7d",
  "    \x7d;",
  "    xhttp.open(\"GET\", \"/rfid\", true);",
  "    xhttp.send();",
  "  \x7d, 1000);",
  "  function toggleCheckbox(x) \x7b",
  "            var xhr = new XMLHttpRequest();",
  "            xhr.open(\"GET\", \"/\" + x, true);",
  "            xhr.send();",
  "        \x7d",
  "</script>",
  "</html>"]

def websiteHtml : Str := ['\n'].intercalate (websiteHtmlLines.map String.toList)

end HomeMonitor.AsyncWebserver
